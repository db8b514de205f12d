import TemplateCheck.Proofs.Pattern.Preference

/-!
# Readings of texts that agree up to a limit

A pattern that reads two texts which agree up to a limit makes the same choices in both, until it
looks beyond the limit. `Agree` says how the results of two such runs compare: both fail, both end
at places that are alike, or one of them ends beyond the limit. A pattern that always goes forward
and looks at no more than the next character carries this from what is done with its ends to its
runs (`Agree.run`).
-/

namespace TemplateCheck

namespace Pattern

variable {ι : Type} {p : Pattern ι}

/-! ## What is done with the end of a run -/

theorem spanMost_map (f : Cursor ι → Cursor ι) (accepts : Char → Bool) (next : Next ι)
    (captures : List (Capture ι)) (previous : Option Char) (offset : Nat) (t : Text) :
    spanMost accepts (fun later => (next later).map f) captures previous offset t =
      (spanMost accepts next captures previous offset t).map f := by
  induction t generalizing previous offset with
  | nil => rfl
  | cons c t ih =>
    rw [spanMost, spanMost, ih]
    split_ifs
    · cases spanMost accepts next captures (some c) (offset + 1) t <;> rfl
    · rfl

theorem spanLeast_map (f : Cursor ι → Cursor ι) (accepts : Char → Bool) (next : Next ι)
    (captures : List (Capture ι)) (previous : Option Char) (offset : Nat) (t : Text) :
    spanLeast accepts (fun later => (next later).map f) captures previous offset t =
      (spanLeast accepts next captures previous offset t).map f := by
  induction t generalizing previous offset with
  | nil => rfl
  | cons c t ih =>
    rw [spanLeast, spanLeast, ih]
    cases next ⟨previous, offset, c :: t, captures⟩ with
    | some last => rfl
    | none =>
      dsimp only [Option.map_none]
      split_ifs <;> rfl

theorem repeatMost_map (f : Cursor ι → Cursor ι) {item : Cursor ι → Next ι → Option (Cursor ι)}
    (hItem : ∀ cursor next, item cursor (fun later => (next later).map f) =
      (item cursor next).map f)
    (bound : Text) (cursor : Cursor ι) (next : Next ι) :
    repeatMost item bound cursor (fun later => (next later).map f) =
      (repeatMost item bound cursor next).map f := by
  induction bound generalizing cursor with
  | nil => rfl
  | cons _ bound ih =>
    simp only [repeatMost, ih, hItem]
    cases item cursor fun later => repeatMost item bound later next <;> rfl

/-- What is done with every end may as well be done with the one that is taken. -/
theorem run_map (f : Cursor ι → Cursor ι) (cursor : Cursor ι) (next : Next ι) :
    p.run cursor (fun later => (next later).map f) = (p.run cursor next).map f := by
  induction p generalizing cursor next with
  | empty => rfl
  | char accepts =>
    rw [run, run]
    split
    · rfl
    · split_ifs <;> rfl
  | lit t =>
    rw [run, run]
    split <;> rfl
  | span accepts => exact spanMost_map f accepts next _ _ _ _
  | spanLazy accepts => exact spanLeast_map f accepts next _ _ _ _
  | look test =>
    rw [run, run]
    split_ifs <;> rfl
  | seq p q ihp ihq =>
    simp only [run, ihq]
    exact ihp cursor _
  | either p q ihp ihq =>
    rw [run, run, ihp, ihq]
    cases p.run cursor next <;> rfl
  | loop p ih => exact repeatMost_map f ih _ _ _
  | capture name p ih => exact ih cursor _

/-! ## Results that agree -/

/-- Two places before a limit up to which the texts around them agree; `x` and `x'`
follow the limit. -/
structure Alike (x x' : Text) (limit : Nat) (a a' : Cursor ι) : Prop where
  exists_rest : ∃ common, a.rest = common ++ x ∧ a'.rest = common ++ x' ∧
    a.offset + common.length = limit
  offset_eq : a'.offset = a.offset
  recorded_eq : recorded a'.captures = recorded a.captures

theorem Alike.offset_le {x x' : Text} {limit : Nat} {a a' : Cursor ι} (h : Alike x x' limit a a') :
    a.offset ≤ limit := by
  obtain ⟨common, -, -, hLimit⟩ := h.exists_rest
  omega

theorem Alike.exists_append {x x' : Text} {limit : Nat} {a a' : Cursor ι}
    (h : Alike x x' limit a a') {common read read' : Text} (hText : common ++ x = read ++ a.rest)
    (hText' : common ++ x' = read' ++ a'.rest) :
    ∃ later, common = read ++ later ∧ read = read' ∧
    a.rest = later ++ x ∧ a'.rest = later ++ x' ∧
      a.offset + later.length = limit := by
  obtain ⟨later, hRest, hRest', hLimit⟩ := h.exists_rest
  rw [hRest, ← List.append_assoc] at hText
  rw [hRest', ← List.append_assoc] at hText'
  have hRead := List.append_cancel_right hText
  have hRead' := List.append_cancel_right hText'
  exact ⟨later, hRead, List.append_cancel_right (hRead.symm.trans hRead'), hRest, hRest', hLimit⟩

/-- Results of two runs: none at all, places that are alike, or a place beyond the limit
on one side. -/
inductive Agree (x x' : Text) (limit : Nat) : Option (Cursor ι) → Option (Cursor ι) → Prop
  | none : Agree x x' limit none none
  | alike {a a' : Cursor ι} (alike : Alike x x' limit a a') : Agree x x' limit (some a) (some a')
  | left {a : Cursor ι} (beyond : limit < a.offset) (r' : Option (Cursor ι)) :
      Agree x x' limit (some a) r'
  | right (r : Option (Cursor ι)) {a' : Cursor ι} (beyond : limit < a'.offset) :
      Agree x x' limit r (some a')

/-- From places beyond the limit only such places are reached. -/
def StaysBeyond (limit : Nat) (next : Next ι) : Prop :=
  ∀ cursor last, limit < cursor.offset → next cursor = some last → limit < last.offset

/-- What is done with places that are alike agrees. -/
structure AgreeNext (x x' : Text) (limit : Nat) (next next' : Next ι) : Prop where
  agree : ∀ a a', Alike x x' limit a a' → Agree x x' limit (next a) (next' a')
  left : StaysBeyond limit next
  right : StaysBeyond limit next'

section

variable {x x' : Text} {limit : Nat} {next next' : Next ι}

theorem StaysBeyond.run (h : StaysBeyond limit next) (p : Pattern ι) :
    StaysBeyond limit fun cursor => p.run cursor next := by
  intro cursor last hCursor hRun
  obtain ⟨later, hReads, hNext⟩ := exists_reads_of_run hRun
  obtain ⟨read, -, hOffset⟩ := hReads.exists_passed
  exact h later last (by omega) hNext

theorem AgreeNext.accept : AgreeNext x x' limit (some : Next ι) some where
  agree _ _ hAlike := .alike hAlike
  left := by
    rintro cursor last hCursor ⟨⟩
    exact hCursor
  right := by
    rintro cursor last hCursor ⟨⟩
    exact hCursor

theorem run_either_eq (p q : Pattern ι) (cursor : Cursor ι) (next : Next ι) :
    (either p q).run cursor next = (p.run cursor next).or (q.run cursor next) := by
  rw [run]
  cases p.run cursor next <;> rfl

theorem spanMost_cons (accepts : Char → Bool) (next : Next ι) (captures : List (Capture ι))
    (previous : Option Char) (offset : Nat) (c : Char) (t : Text) :
    spanMost accepts next captures previous offset (c :: t) =
      (if accepts c then spanMost accepts next captures (some c) (offset + 1) t else none).or
        (next ⟨previous, offset, c :: t, captures⟩) := by
  rw [spanMost]
  split_ifs
  · cases spanMost accepts next captures (some c) (offset + 1) t <;> rfl
  · rfl

/-- A run of a class that starts at the limit goes beyond it or stays where it is. -/
theorem exists_spanMost_or (hNext : StaysBeyond limit next) (accepts : Char → Bool)
    (previous : Option Char) (t : Text) (captures : List (Capture ι)) :
    ∃ r, spanMost accepts next captures previous limit t =
      r.or (next ⟨previous, limit, t, captures⟩) ∧ ∀ last, r = some last → limit < last.offset := by
  cases t with
  | nil => exact ⟨none, rfl, fun last h => by cases h⟩
  | cons c t =>
    refine ⟨_, spanMost_cons accepts next captures previous limit c t, fun last h => ?_⟩
    split_ifs at h with hc
    exact hNext.run (.span accepts) ⟨some c, limit + 1, t, captures⟩ last (Nat.lt_succ_self limit) h

namespace Agree

theorem of_beyond {r r' : Option (Cursor ι)} (h : ∀ last, r = some last → limit < last.offset)
    (h' : ∀ last, r' = some last → limit < last.offset) : Agree x x' limit r r' := by
  cases r with
  | some a => exact .left (h a rfl) r'
  | none =>
    cases r' with
    | some a' => exact .right _ (h' a' rfl)
    | none => exact .none

/-- First choices that agree are followed by second choices that agree. -/
theorem or {r r' s s' : Option (Cursor ι)} (hFirst : Agree x x' limit r r')
    (hSecond : Agree x x' limit s s') :
    Agree x x' limit (r.or s) (r'.or s') := by
  cases hFirst with
  | none => exact hSecond
  | alike hAlike => exact .alike hAlike
  | left hBeyond => exact .left hBeyond _
  | right r hBeyond => exact .right _ hBeyond

theorem spanMost (hNext : AgreeNext x x' limit next next') (accepts : Char → Bool)
    {captures captures' : List (Capture ι)} (hRecorded : recorded captures' = recorded captures)
    (common : Text) {offset : Nat} (hLimit : offset + common.length = limit)
    (previous previous' : Option Char) :
    Agree x x' limit (Pattern.spanMost accepts next captures previous offset (common ++ x))
      (Pattern.spanMost accepts next' captures' previous' offset (common ++ x')) := by
  have hHere : Agree x x' limit (next ⟨previous, offset, common ++ x, captures⟩)
      (next' ⟨previous', offset, common ++ x', captures'⟩) :=
    hNext.agree _ _ ⟨⟨common, rfl, rfl, hLimit⟩, rfl, hRecorded⟩
  induction common generalizing offset previous previous' with
  | nil =>
    -- Longer runs go beyond the limit in either text.
    obtain rfl : offset = limit := hLimit
    obtain ⟨r, hr, hBeyond⟩ := exists_spanMost_or hNext.left accepts previous x captures
    obtain ⟨r', hr', hBeyond'⟩ := exists_spanMost_or hNext.right accepts previous' x' captures'
    rw [List.nil_append, List.nil_append, hr, hr']
    exact (of_beyond hBeyond hBeyond').or hHere
  | cons c common ih =>
    have hLater : offset + 1 + common.length = limit := by
      rw [List.length_cons] at hLimit
      omega
    rw [List.cons_append, List.cons_append, spanMost_cons, spanMost_cons]
    refine or ?_ hHere
    split_ifs
    · exact ih hLater _ _ (hNext.agree _ _ ⟨⟨common, rfl, rfl, hLater⟩, rfl, hRecorded⟩)
    · exact .none

end Agree

/-! ## Runs that agree -/

/-- Whether the pattern always goes forward and looks at no more than the next character. -/
def isDirect : Pattern ι → Bool
  | empty | char _ | lit _ | span _ => true
  | spanLazy _ | look _ | loop _ => false
  | seq p q | either p q => p.isDirect && q.isDirect
  | capture _ p => p.isDirect

theorem Reads.offset_char {accepts : Char → Bool} {a b : Cursor ι}
    (h : (Pattern.char accepts).Reads a b) :
    b.offset = a.offset + 1 := by
  cases h with
  | char _ _ => rfl

theorem Reads.offset_lit {word : Text} {a b : Cursor ι} (h : (Pattern.lit word).Reads a b) :
    b.offset = a.offset + word.length := by
  cases h with
  | lit _ => rfl

/-- A word that does not begin a text begins no longer one. -/
theorem dropStart?_append_eq_none {word common : Text} (hLength : word.length ≤ common.length)
    (hNot : ¬ word <+: common) (t : Text) : Text.dropStart? word (common ++ t) = none := by
  cases hDrop : Text.dropStart? word (common ++ t) with
  | none => rfl
  | some rest =>
    have hWord : word <+: common ++ t := ⟨rest, (Text.eq_append_of_dropStart? hDrop).symm⟩
    exact absurd (List.prefix_of_prefix_length_le hWord (List.prefix_append common t) hLength) hNot

namespace Agree

/-- Runs agree where every reading goes beyond the limit. -/
theorem of_reads (hNext : AgreeNext x x' limit next next') {a a' : Cursor ι}
    (h : ∀ later, p.Reads a later → limit < later.offset)
    (h' : ∀ later, p.Reads a' later → limit < later.offset) :
    Agree x x' limit (p.run a next) (p.run a' next') := by
  refine of_beyond (fun last hRun => ?_) fun last hRun => ?_
  · obtain ⟨later, hReads, hLast⟩ := exists_reads_of_run hRun
    exact hNext.left later last (h later hReads) hLast
  · obtain ⟨later, hReads, hLast⟩ := exists_reads_of_run hRun
    exact hNext.right later last (h' later hReads) hLast

theorem char (hNext : AgreeNext x x' limit next next') (accepts : Char → Bool) {a a' : Cursor ι}
    (hAlike : Alike x x' limit a a') :
    Agree x x' limit ((Pattern.char accepts).run a next) ((Pattern.char accepts).run a' next') := by
  obtain ⟨⟨common, hRest, hRest', hLimit⟩, hOffset, hRecorded⟩ := hAlike
  cases common with
  | nil =>
    have hBeyond (b : Cursor ι) (hb : b.offset = limit) :
        ∀ later, (Pattern.char accepts).Reads b later → limit < later.offset := by
      intro later hReads
      rw [hReads.offset_char, hb]
      exact Nat.lt_succ_self limit
    exact of_reads hNext (hBeyond a hLimit) (hBeyond a' (hOffset.trans hLimit))
  | cons c common =>
    rw [Pattern.run, Pattern.run, hRest, hRest']
    dsimp only [List.cons_append]
    split_ifs
    · refine hNext.agree _ _ ⟨⟨common, rfl, rfl, ?_⟩, congrArg (· + 1) hOffset, hRecorded⟩
      rw [List.length_cons] at hLimit
      show a.offset + 1 + common.length = limit
      omega
    · exact .none

/-- A word is read in both texts, or in neither, unless it reaches beyond the limit. -/
theorem lit (hNext : AgreeNext x x' limit next next') (word : Text) {a a' : Cursor ι}
    (hAlike : Alike x x' limit a a') :
    Agree x x' limit ((Pattern.lit word).run a next) ((Pattern.lit word).run a' next') := by
  obtain ⟨⟨common, hRest, hRest', hLimit⟩, hOffset, hRecorded⟩ := hAlike
  by_cases hLong : common.length < word.length
  · have hBeyond (b : Cursor ι) (hb : b.offset = a.offset) :
        ∀ later, (Pattern.lit word).Reads b later → limit < later.offset := by
      intro later hReads
      rw [hReads.offset_lit, hb]
      omega
    exact of_reads hNext (hBeyond a rfl) (hBeyond a' hOffset)
  · by_cases hWord : word <+: common
    · obtain ⟨rest, rfl⟩ := hWord
      rw [Pattern.run, Pattern.run, hRest, hRest', List.append_assoc, List.append_assoc,
        Text.dropStart?_append, Text.dropStart?_append]
      refine hNext.agree _ _ ⟨⟨rest, rfl, rfl, ?_⟩, congrArg (· + word.length) hOffset, hRecorded⟩
      rw [List.length_append] at hLimit
      show a.offset + word.length + rest.length = limit
      omega
    · rw [Pattern.run, Pattern.run, hRest, hRest', dropStart?_append_eq_none (by omega) hWord,
        dropStart?_append_eq_none (by omega) hWord]
      exact .none

end Agree

theorem Alike.capture {a a' b b' : Cursor ι} (hStart : Alike x x' limit a a')
    (hEnd : Alike x x' limit b b') (name : ι) :
    Alike x x' limit { b with captures := .between name a b :: b.captures }
      { b' with captures := .between name a' b' :: b'.captures } := by
  obtain ⟨common, hRest, hRest', hLimit⟩ := hStart.exists_rest
  have hLength : b.offset - a.offset ≤ common.length := by
    have hLe := hEnd.offset_le
    omega
  have hText : (Capture.between name a' b').text = (Capture.between name a b).text := by
    show a'.rest.take (b'.offset - a'.offset) = a.rest.take (b.offset - a.offset)
    rw [hEnd.offset_eq, hStart.offset_eq, hRest, hRest', List.take_append_of_le_length hLength,
      List.take_append_of_le_length hLength]
  refine ⟨hEnd.exists_rest, hEnd.offset_eq, ?_⟩
  show (name, (Capture.between name a' b').text) :: recorded b'.captures =
    (name, (Capture.between name a b).text) :: recorded b.captures
  rw [hText, hEnd.recorded_eq]

/-- Runs over texts that agree up to a limit agree. -/
theorem Agree.run (hDirect : p.isDirect = true) (hNext : AgreeNext x x' limit next next')
    {a a' : Cursor ι} (hAlike : Alike x x' limit a a') :
    Agree x x' limit (p.run a next) (p.run a' next') := by
  induction p generalizing a a' next next' with
  | empty => exact hNext.agree a a' hAlike
  | char accepts => exact .char hNext accepts hAlike
  | lit word => exact .lit hNext word hAlike
  | span accepts =>
    obtain ⟨⟨common, hRest, hRest', hLimit⟩, hOffset, hRecorded⟩ := hAlike
    rw [Pattern.run, Pattern.run, hRest, hRest', hOffset]
    exact .spanMost hNext accepts hRecorded common hLimit _ _
  | spanLazy accepts => cases hDirect
  | look test => cases hDirect
  | loop p ih => cases hDirect
  | seq p q ihp ihq =>
    obtain ⟨hp, hq⟩ := Bool.and_eq_true_iff.mp hDirect
    exact ihp hp ⟨fun b b' hb => ihq hq hNext hb, hNext.left.run q, hNext.right.run q⟩ hAlike
  | either p q ihp ihq =>
    obtain ⟨hp, hq⟩ := Bool.and_eq_true_iff.mp hDirect
    rw [run_either_eq, run_either_eq]
    exact (ihp hp hNext hAlike).or (ihq hq hNext hAlike)
  | capture name p ih =>
    refine ih hDirect ⟨?_, ?_, ?_⟩ hAlike
    · exact fun b b' hb => hNext.agree _ _ (hAlike.capture hb name)
    · exact fun b last hb => hNext.left _ last hb
    · exact fun b last hb => hNext.right _ last hb

end

end Pattern

end TemplateCheck
