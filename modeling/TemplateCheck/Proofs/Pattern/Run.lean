import TemplateCheck.Proofs.Pattern
import TemplateCheck.Proofs.Text.Classes

/-!
# Runs that are computed

What `Pattern.run` returns where the text says how a pattern is to be read: an alternative that
fails is passed over (`run_either`), a run of a class stops at the first character outside the class
(`spanMost_eq`) or as early as it can (`spanLeast_eq`), and a word, blanks and an identifier are
read as a whole (`run_lit`, `run_blanks`, `run_blanks1`, `run_identifier`, `run_spanLazy1`).

A match that is found in a text is passed over before the next one is looked for
(`readAllFrom_of_run`).
-/

namespace TemplateCheck

namespace Pattern

variable {ι : Type} {p : Pattern ι}

/-! ## Sequences and choices -/

theorem run_all_cons (ps : List (Pattern ι)) (cursor : Cursor ι) (next : Next ι) :
    (all (p :: ps)).run cursor next = p.run cursor fun later => (all ps).run later next := rfl

theorem run_all_append (ps qs : List (Pattern ι)) (cursor : Cursor ι) (next : Next ι) :
    (all (ps ++ qs)).run cursor next = (all ps).run cursor fun later =>
      (all qs).run later next := by
  induction ps generalizing cursor with
  | nil => rfl
  | cons p ps ih =>
    rw [List.cons_append, run_all_cons, run_all_cons]
    exact congrArg (p.run cursor) (funext ih)

theorem run_either {p q : Pattern ι} {cursor : Cursor ι} {next : Next ι}
    (h : p.run cursor next = none) :
    (either p q).run cursor next = q.run cursor next := by
  rw [run, h]

theorem run_opt {p : Pattern ι} {cursor : Cursor ι} {next : Next ι} (h : p.run cursor next = none) :
    (opt p).run cursor next = next cursor :=
  run_either h

theorem run_opt_eq_some {p : Pattern ι} {cursor last : Cursor ι} {next : Next ι}
    (h : p.run cursor next = some last) : (opt p).run cursor next = some last := by
  rw [opt, run, h]

/-! ## Runs of a class -/

section

variable {accepts : Char → Bool} {next : Next ι} {captures : List (Capture ι)}
  {previous : Option Char} {offset : Nat} {read rest : Text} {last : Cursor ι}

/-- A run ends where the rest of the pattern goes on, if it does not at any later place. -/
theorem spanMost_eq_of_longest (hRead : ∀ c ∈ read, accepts c = true)
    (hLonger : ∀ more rest', more ≠ [] → rest = more ++ rest' → (∀ c ∈ more, accepts c = true) →
      ∀ previous offset, next ⟨previous, offset, rest', captures⟩ = none)
    (hNext : next ((⟨previous, offset, read ++ rest, captures⟩ : Cursor ι).after read rest) =
      some last) :
    spanMost accepts next captures previous offset (read ++ rest) = some last := by
  induction read generalizing previous offset with
  | nil =>
    cases rest with
    | nil => exact hNext
    | cons c rest =>
      rw [List.nil_append, spanMost]
      split_ifs with hc
      · split
        · rename_i found hFound
          obtain ⟨more, rest', rfl, hMore, hFound⟩ := exists_read_of_spanMost hFound
          have hNone := hLonger (c :: more) rest' (List.cons_ne_nil c more)
            rfl (List.forall_mem_cons.mpr ⟨hc, hMore⟩)
          exact absurd ((hNone _ _).symm.trans hFound) (by simp)
        · exact hNext
      · exact hNext
  | cons c read ih =>
    obtain ⟨hc, hRead⟩ := List.forall_mem_cons.mp hRead
    rw [Cursor.after_cons _ c read rest (read ++ rest)] at hNext
    rw [List.cons_append, spanMost, if_pos hc, ih hRead hNext]

/-- A run stops before the first character outside its class, if the rest of the pattern lets it. -/
theorem spanMost_eq (hRead : ∀ c ∈ read, accepts c = true)
    (hRest : ∀ c ∈ rest.head?, accepts c = false)
    (hNext : next ((⟨previous, offset, read ++ rest, captures⟩ : Cursor ι).after read rest) =
      some last) : spanMost accepts next captures previous offset (read ++ rest) = some last := by
  refine spanMost_eq_of_longest hRead (fun more rest' hMore hRest' hClass => ?_) hNext
  obtain ⟨c, more, rfl⟩ := List.exists_cons_of_ne_nil hMore
  have hHead := hRest c (by rw [hRest']; rfl)
  rw [hClass c List.mem_cons_self] at hHead
  cases hHead

/-- A run ends at the last place from which the rest of the pattern goes on. -/
theorem exists_longest_of_spanMost {t : Text}
    (h : spanMost accepts next captures previous offset t = some last) :
    ∃ read rest, t = read ++ rest ∧ (∀ c ∈ read, accepts c = true) ∧
      next ((⟨previous, offset, t, captures⟩ : Cursor ι).after read rest) = some last ∧
      ∀ more rest', more ≠ [] → rest = more ++ rest' → (∀ c ∈ more, accepts c = true) →
        next ((⟨previous, offset, t, captures⟩ : Cursor ι).after (read ++ more) rest') = none := by
  fun_induction spanMost accepts next captures previous offset t with
  | case1 previous offset =>
    refine ⟨[], [], rfl, by simp, h, fun more rest' hMore hRest => ?_⟩
    exact absurd (List.append_eq_nil_iff.mp hRest.symm).1 hMore
  | case2 previous offset c rest hc found hFound ih =>
    obtain rfl := Option.some.inj h
    obtain ⟨read, rest', rfl, hRead, hNext, hLonger⟩ := ih hFound
    refine ⟨c :: read, rest', rfl, List.forall_mem_cons.mpr ⟨hc, hRead⟩, ?_,
      fun more rest hMore hRest hClass => ?_⟩
    · rwa [Cursor.after_cons _ c read rest' (read ++ rest')]
    · rw [List.cons_append, Cursor.after_cons _ c (read ++ more) rest (read ++ rest')]
      exact hLonger more rest hMore hRest hClass
  | case3 previous offset c rest hc hNone ih =>
    refine ⟨[], c :: rest, rfl, by simp, h, fun more rest' hMore hRest hClass => ?_⟩
    -- Where a longer run led on, the first character would have been passed.
    obtain ⟨d, more, rfl⟩ := List.exists_cons_of_ne_nil hMore
    obtain ⟨rfl, rfl⟩ := List.cons.inj hRest
    refine Option.not_isSome_iff_eq_none.mp fun hSome => ?_
    rw [List.nil_append, Cursor.after_cons _ c more rest' (more ++ rest')] at hSome
    have hFound := isSome_spanMost (List.forall_mem_cons.mp hClass).2 hSome
    exact absurd (hNone ▸ hFound : (none : Option (Cursor ι)).isSome = true) Bool.false_ne_true
  | case4 previous offset c rest hc =>
    refine ⟨[], c :: rest, rfl, by simp, h, fun more rest' hMore hRest hClass => ?_⟩
    obtain ⟨d, more, rfl⟩ := List.exists_cons_of_ne_nil hMore
    obtain ⟨rfl, -⟩ := List.cons.inj hRest
    exact absurd (hClass c List.mem_cons_self) hc

/-- A run that stops early goes on as long as the rest of the pattern fails. -/
theorem spanLeast_eq (hRead : ∀ c ∈ read, accepts c = true)
    (hFail : ∀ before c after, read = before ++ c :: after → ∀ previous offset,
      next ⟨previous, offset, c :: (after ++ rest), captures⟩ = none)
    (hNext : next ((⟨previous, offset, read ++ rest, captures⟩ : Cursor ι).after read rest) =
      some last) :
    spanLeast accepts next captures previous offset (read ++ rest) = some last := by
  induction read generalizing previous offset with
  | nil =>
    have hHere : next ⟨previous, offset, rest, captures⟩ = some last := hNext
    cases rest with
    | nil => exact hHere
    | cons c rest => rw [List.nil_append, spanLeast, hHere]
  | cons c read ih =>
    obtain ⟨hc, hRead⟩ := List.forall_mem_cons.mp hRead
    rw [Cursor.after_cons _ c read rest (read ++ rest)] at hNext
    rw [List.cons_append, spanLeast, hFail [] c read rfl, if_pos hc]
    exact ih hRead (fun before d after hEq => hFail (c :: before) d after (by rw [hEq]; rfl)) hNext

end

/-! ## Words, blanks and names -/

/-- One blank or more. -/
def IsGap (t : Text) : Prop := t ≠ [] ∧ ∀ c ∈ t, isBlank c = true

section

variable {captures : List (Capture ι)} {previous : Option Char} {offset : Nat} {next : Next ι}
  {read rest : Text} {last : Cursor ι}

theorem run_lit (word : Text)
    (hNext : next ⟨word.getLast?.or previous, offset + word.length, rest, captures⟩ = some last) :
    (lit word).run ⟨previous, offset, word ++ rest, captures⟩ next = some last := by
  rw [run, Text.dropStart?_append]
  exact hNext

theorem run_lit_eq_none {a c : Char} (h : a ≠ c) (word : Text) :
    (lit (a :: word)).run ⟨previous, offset, c :: rest, captures⟩ next = none := by
  rw [run, Text.dropStart?, if_neg h]

theorem run_blanks (hRead : ∀ c ∈ read, isBlank c = true)
    (hRest : ∀ c ∈ rest.head?, isBlank c = false)
    (hNext : next ⟨read.getLast?.or previous, offset + read.length, rest, captures⟩ = some last) :
    blanks.run ⟨previous, offset, read ++ rest, captures⟩ next = some last :=
  spanMost_eq hRead hRest hNext

theorem run_blanks1 (hRead : IsGap read) (hRest : ∀ c ∈ rest.head?, isBlank c = false)
    (hNext : next ⟨read.getLast?.or previous, offset + read.length, rest, captures⟩ = some last) :
    blanks1.run ⟨previous, offset, read ++ rest, captures⟩ next = some last := by
  obtain ⟨hNonempty, hRead⟩ := hRead
  obtain ⟨c, read, rfl⟩ := List.exists_cons_of_ne_nil hNonempty
  obtain ⟨hc, hRead⟩ := List.forall_mem_cons.mp hRead
  show (seq (char isBlank) blanks).run _ _ = _
  rw [run, run]
  dsimp only [List.cons_append]
  rw [if_pos hc]
  refine run_blanks hRead hRest ?_
  rw [Nat.add_assoc, Nat.add_comm 1, ← Text.getLast?_cons_or c read previous]
  exact hNext

theorem run_identifier {name : Text} (hName : name.isIdentifier = true)
    (hRest : ∀ c ∈ rest.head?, isNameChar c = false) (part : ι)
    (hNext : next ⟨name.getLast?.or previous, offset + name.length, rest,
      ⟨part, offset, name ++ rest, name.length⟩ :: captures⟩ = some last) :
    (capture part identifier).run ⟨previous, offset, name ++ rest, captures⟩ next = some last := by
  obtain ⟨c, later, rfl, hc, hLater⟩ := exists_cons_of_isIdentifier hName
  rw [identifier, run, run, run]
  dsimp only [List.cons_append]
  rw [if_pos hc, run]
  have hLength : offset + 1 + later.length = offset + (c :: later).length := by
    rw [List.length_cons]
    omega
  refine spanMost_eq hLater hRest ?_
  show next ⟨later.getLast?.or (some c), offset + 1 + later.length, rest,
    ⟨part, offset, _, offset + 1 + later.length - offset⟩ :: captures⟩ = _
  rw [hLength, Nat.add_sub_cancel_left, ← Text.getLast?_cons_or c later previous]
  exact hNext

theorem run_spanLazy1_cons {accepts : Char → Bool} {c : Char}
    (hRead : ∀ d ∈ c :: read, accepts d = true)
    (hFail : ∀ before d after, read = before ++ d :: after → ∀ previous offset captures,
      next ⟨previous, offset, d :: (after ++ rest), captures⟩ = none)
    (part : ι)
    (hNext : next ⟨(c :: read).getLast?.or previous, offset + (c :: read).length, rest,
      ⟨part, offset, c :: (read ++ rest), (c :: read).length⟩ :: captures⟩ = some last) :
    (capture part (spanLazy1 accepts)).run ⟨previous, offset, c :: (read ++ rest), captures⟩ next =
      some last := by
  obtain ⟨hc, hLater⟩ := List.forall_mem_cons.mp hRead
  have hLength : offset + 1 + read.length = offset + (c :: read).length := by
    rw [List.length_cons]
    omega
  rw [spanLazy1, run, run, run]
  dsimp only
  rw [if_pos hc, run]
  refine spanLeast_eq hLater (fun before d after hEq previous offset => ?_) ?_
  · exact hFail before d after hEq previous offset _
  · show next ⟨read.getLast?.or (some c), offset + 1 + read.length, rest,
      ⟨part, offset, _, offset + 1 + read.length - offset⟩ :: captures⟩ = _
    rw [hLength, Nat.add_sub_cancel_left, ← Text.getLast?_cons_or c read previous]
    exact hNext

/-- Characters of a class are captured up to the first place from which the rest of the
pattern goes on. -/
theorem run_spanLazy1 {accepts : Char → Bool} (hNonempty : read ≠ [])
    (hRead : ∀ c ∈ read, accepts c = true)
    (hFail : ∀ before c after, read = before ++ c :: after → ∀ previous offset captures,
      next ⟨previous, offset, c :: (after ++ rest), captures⟩ = none)
    (part : ι)
    (hNext : next ⟨read.getLast?.or previous, offset + read.length, rest,
      ⟨part, offset, read ++ rest, read.length⟩ :: captures⟩ = some last) :
    (capture part (spanLazy1 accepts)).run ⟨previous, offset, read ++ rest, captures⟩ next =
      some last := by
  obtain ⟨c, later, rfl⟩ := List.exists_cons_of_ne_nil hNonempty
  exact run_spanLazy1_cons hRead
    (fun before d after hEq => hFail (c :: before) d after (by rw [hEq]; rfl)) part hNext

end

/-! ## Further matches -/

theorem readAllFrom_skip (s t : Text) (previous : Option Char) (offset : Nat) :
    p.readAllFrom s.length previous offset (s ++ t) =
      p.readAllFrom 0 (s.getLast?.or previous) (offset + s.length) t := by
  induction s generalizing previous offset with
  | nil => rfl
  | cons c s ih =>
    rw [List.cons_append, List.length_cons, readAllFrom, ih, Text.getLast?_cons_or,
      Nat.add_assoc, Nat.add_comm 1]

/-- A match is found where a run passes a piece of the text, and the next one is looked
for behind the piece. -/
theorem readAllFrom_of_run {s t : Text} {d : Char} (hEnd : s.getLast? = some d)
    {previous : Option Char} {offset : Nat} {last : Cursor ι}
    (hRun : p.run ⟨previous, offset, s ++ t, []⟩ some = some last)
    (hLast : last.offset = offset + s.length) :
    p.readAllFrom 0 previous offset (s ++ t) =
      ⟨offset, last.offset, last.captures⟩ :: p.readAllFrom 0 (some d) last.offset t := by
  cases s with
  | nil => cases hEnd
  | cons c s =>
    have hSkip : last.offset - offset - 1 = s.length := by
      rw [hLast, List.length_cons]
      omega
    have hPrevious : s.getLast?.or (some c) = some d := by
      rw [← Text.getLast?_cons_or c s none, hEnd, Option.some_or]
    rw [List.cons_append] at hRun ⊢
    rw [readAllFrom, readAt, hRun]
    dsimp only [Option.map_some]
    rw [hSkip, readAllFrom_skip, hPrevious, hLast, List.length_cons, Nat.add_assoc, Nat.add_comm 1]

theorem readFrom_of_mem_readAllFrom {text t : Text} {found : Match ι} {skip offset : Nat}
    {previous : Option Char} (hText : text.drop offset = t)
    (hPrevious : previous = if offset = 0 then none else text[offset - 1]?)
    (h : found ∈ p.readAllFrom skip previous offset t) :
    p.readFrom text found.start = some found := by
  have hNext {c : Char} {offset : Nat} {t : Text} (hText : text.drop offset = c :: t) :
      some c = if offset + 1 = 0 then none else text[offset + 1 - 1]? :=
    (Text.getElem?_of_drop hText).symm
  fun_induction readAllFrom p skip previous offset t with
  | case1 => cases h
  | case2 skip previous offset c t ih => exact ih (Text.drop_succ hText) (hNext hText) h
  | case3 previous offset c t first hFirst ih =>
    rcases List.mem_cons.mp h with rfl | h
    · obtain ⟨last, -, hFound⟩ := exists_reads_of_readAt hFirst
      have hStart : found.start = offset := by rw [hFound]
      rw [readFrom, hStart, hText, ← hPrevious, hFirst]
    · exact ih (Text.drop_succ hText) (hNext hText) h
  | case4 previous offset c t hNone ih => exact ih (Text.drop_succ hText) (hNext hText) h

theorem readFrom_of_mem_readAll {text : Text} {found : Match ι} (h : found ∈ p.readAll text) :
    p.readFrom text found.start = some found :=
  readFrom_of_mem_readAllFrom List.drop_zero rfl h

end Pattern

end TemplateCheck
