import TemplateCheck.Proofs.Pattern.Run
import TemplateCheck.Proofs.Text.Occurrence

/-!
# Preferred readings

What a pattern reads first is put together as the pattern is. `Prefers` says how much of a text the
pattern proposes to read before all else, by what it leaves, and what it records on the way;
`Rejects` says that it proposes nothing at all. Both are stated for every place with the same text
ahead, so they hold of patterns that do not look back.
-/

namespace TemplateCheck

namespace Pattern

variable {ι : Type} {p q : Pattern ι} {s t rest : Text} {found later : List (ι × Text)}

/-- What captures recorded, by their names. -/
def recorded (captures : List (Capture ι)) : List (ι × Text) :=
  captures.map fun record => (record.name, record.text)

theorem Match.text?_eq [DecidableEq ι] (found : Match ι) (name : ι) :
    found.text? name = ((recorded found.captures).find? (·.1 = name)).map (·.2) := by
  rw [Match.text?, Match.capture?, recorded, List.find?_map, Option.map_map]
  rfl

/-- Of the text `whole` the pattern proposes before all else to leave `rest`, and records `found` on
the way, the latest first. -/
def Prefers (p : Pattern ι) (whole rest : Text) (found : List (ι × Text)) : Prop :=
  ∀ cursor : Cursor ι, cursor.rest = whole → ∃ last : Cursor ι, last.rest = rest ∧
    last.offset + rest.length = cursor.offset + whole.length ∧
    recorded last.captures = found ++ recorded cursor.captures ∧
    ∀ next accepted, next last = some accepted → p.run cursor next = some accepted

/-- The pattern reads nothing of a text. -/
def Rejects (p : Pattern ι) (t : Text) : Prop :=
  ∀ (cursor : Cursor ι) (next : Next ι), cursor.rest = t → p.run cursor next = none

/-! ## Texts that are rejected -/

namespace Rejects

theorem run_ne {cursor : Cursor ι} (h : p.Rejects cursor.rest) (next : Next ι) (last : Cursor ι) :
    p.run cursor next ≠ some last := by
  rw [h cursor next rfl]
  exact nofun

/-- A text that the pattern cannot read is rejected. -/
theorem of_not_reads (h : ∀ a b : Cursor ι, a.rest = t → ¬ p.Reads a b) : p.Rejects t := by
  intro cursor next hRest
  cases hRun : p.run cursor next with
  | none => rfl
  | some last =>
    obtain ⟨stop, hReads, -⟩ := exists_reads_of_run hRun
    exact absurd hReads (h cursor stop hRest)

theorem char {accepts : Char → Bool} (h : ∀ c ∈ t.head?, accepts c = false) :
    (Pattern.char accepts : Pattern ι).Rejects t := by
  intro cursor next hRest
  rw [run, hRest]
  cases t with
  | nil => rfl
  | cons c t => exact if_neg (by simp [h c rfl])

theorem lit {a : Char} (word : Text) (h : ∀ c ∈ t.head?, c ≠ a) :
    (Pattern.lit (a :: word) : Pattern ι).Rejects t := by
  intro cursor next hRest
  rw [run, hRest]
  cases t with
  | nil => rfl
  | cons c t => rw [Text.dropStart?, if_neg (h c rfl).symm]

theorem seq (h : p.Rejects t) (q : Pattern ι) : (Pattern.seq p q).Rejects t :=
  fun cursor _ => h cursor _

theorem look (test : Option Char → Text → Bool) (h : p.Rejects t) :
    (Pattern.seq (.look test) p).Rejects t := by
  intro cursor next hRest
  rw [run, run]
  split_ifs
  · exact h cursor next hRest
  · rfl

theorem either (hp : p.Rejects t) (hq : q.Rejects t) : (Pattern.either p q).Rejects t := by
  intro cursor next hRest
  rw [run, hp cursor next hRest]
  exact hq cursor next hRest

theorem capture (name : ι) (h : p.Rejects t) : (Pattern.capture name p).Rejects t :=
  fun cursor _ => h cursor _

theorem opt_seq (hp : p.Rejects t) (hq : q.Rejects t) : (Pattern.seq (.opt p) q).Rejects t := by
  intro cursor next hRest
  rw [run, run_opt (hp cursor _ hRest)]
  exact hq cursor next hRest

/-- Blanks in front do not help if no character up to one that is not blank can come next. -/
theorem blanks_seq (hNonempty : s ≠ []) (hLast : ∀ c ∈ s.getLast?, isBlank c = false)
    (h : ∀ c ∈ s, ∀ u, p.Rejects (c :: u)) (t : Text) :
    (Pattern.seq .blanks p).Rejects (s ++ t) := by
  intro cursor next hRest
  refine Option.eq_none_iff_forall_ne_some.mpr fun last hRun => ?_
  obtain ⟨read, rest, hRead, hBlank, hNext⟩ := exists_read_of_spanMost hRun
  obtain ⟨init, e, rfl⟩ : ∃ init e, s = init ++ [e] :=
    ⟨_, _, (List.dropLast_concat_getLast hNonempty).symm⟩
  have hVisible : isBlank e = false := hLast e List.getLast?_concat
  have hText : read ++ rest = init ++ e :: t := by
    rw [← hRead, hRest, List.append_assoc, List.singleton_append]
  obtain ⟨left, rfl, rfl⟩ := Text.exists_append_of_not_mem hText fun hMem => by
    rw [hBlank e hMem] at hVisible
    cases hVisible
  -- What is left after the blanks begins with a character of the text.
  obtain ⟨c, u, hc, hHead⟩ : ∃ c u, c ∈ read ++ left ++ [e] ∧ left ++ e :: t = c :: u := by
    cases left with
    | nil => exact ⟨e, t, by simp, rfl⟩
    | cons c left => exact ⟨c, left ++ e :: t, by simp, rfl⟩
  exact absurd ((h c hc u _ next hHead).symm.trans hNext) (by simp)

theorem of_look {test : Option Char → Text → Bool} (h : ∀ previous, test previous t = false) :
    (Pattern.look test : Pattern ι).Rejects t := by
  intro cursor next hRest
  rw [run, hRest, h, if_neg Bool.false_ne_true]

end Rejects

/-- A loop reads nothing if behind each reading of its item neither the item nor the rest of
the pattern goes on. -/
theorem run_loop {cursor : Cursor ι} {next : Next ι}
    (h : ∀ stop, p.Reads cursor stop → p.Rejects stop.rest ∧ next stop = none) :
    (loop p).run cursor next = next cursor := by
  rw [run]
  cases cursor.rest with
  | nil => rfl
  | cons c bound =>
    have hNone : p.run cursor (fun later => repeatMost p.run bound later next) = none := by
      refine Option.eq_none_iff_forall_ne_some.mpr fun last hRun => ?_
      obtain ⟨stop, hReads, hNext⟩ := exists_reads_of_run hRun
      obtain ⟨hItem, hStop⟩ := h stop hReads
      cases bound with
      | nil => exact absurd (hStop.symm.trans hNext) (by simp)
      | cons d bound =>
        rw [repeatMost, hItem stop _ rfl] at hNext
        exact absurd (hStop.symm.trans hNext) (by simp)
    rw [repeatMost, hNone]

/-! ## Texts that are read first -/

namespace Prefers

theorem empty (rest : Text) : (Pattern.empty : Pattern ι).Prefers rest rest [] :=
  fun cursor hRest => ⟨cursor, hRest, rfl, rfl, fun _ _ hNext => hNext⟩

theorem lit (word rest : Text) : (Pattern.lit word : Pattern ι).Prefers (word ++ rest) rest [] := by
  intro cursor hRest
  refine ⟨cursor.after word rest, rfl, ?_, rfl, fun next accepted hNext => ?_⟩
  · rw [List.length_append, ← Nat.add_assoc]
    rfl
  · rw [run, hRest, Text.dropStart?_append]
    exact hNext

theorem char {accepts : Char → Bool} {c : Char} (hc : accepts c = true) (rest : Text) :
    (Pattern.char accepts : Pattern ι).Prefers (c :: rest) rest [] := by
  intro cursor hRest
  refine ⟨cursor.after [c] rest, rfl, ?_, rfl, fun next accepted hNext => ?_⟩
  · rw [List.length_cons, Nat.add_comm rest.length, ← Nat.add_assoc]
    rfl
  · rw [run, hRest]
    exact (if_pos hc).trans hNext

/-- A run goes up to the first character outside its class. -/
theorem span {accepts : Char → Bool} (hRead : ∀ c ∈ s, accepts c = true)
    (hRest : ∀ c ∈ rest.head?, accepts c = false) :
    (Pattern.span accepts : Pattern ι).Prefers (s ++ rest) rest [] := by
  rintro ⟨previous, offset, whole, captures⟩ hWhole
  obtain rfl : whole = s ++ rest := hWhole
  refine ⟨Cursor.after ⟨previous, offset, s ++ rest, captures⟩ s rest, rfl, ?_, rfl,
    fun next accepted hNext => spanMost_eq hRead hRest hNext⟩
  rw [List.length_append, ← Nat.add_assoc]
  rfl

theorem seq (hp : p.Prefers s t found) (hq : q.Prefers t rest later) :
    (Pattern.seq p q).Prefers s rest (later ++ found) := by
  intro cursor hRest
  obtain ⟨middle, hMiddle, hOffset, hRecorded, hFirst⟩ := hp cursor hRest
  obtain ⟨last, hLast, hOffset', hRecorded', hSecond⟩ := hq middle hMiddle
  refine ⟨last, hLast, hOffset'.trans hOffset, ?_, fun next accepted hNext =>
    hFirst _ _ (hSecond _ _ hNext)⟩
  rw [hRecorded', hRecorded, List.append_assoc]

/-- A run goes up to where the rest of the pattern is read, if that is rejected behind
all longer runs. -/
theorem span_seq {accepts : Char → Bool} (hRead : ∀ c ∈ s, accepts c = true)
    (hLonger : ∀ more left, more ≠ [] → t = more ++ left →
      (∀ c ∈ more, accepts c = true) → q.Rejects left)
    (hq : q.Prefers t rest found) :
    (Pattern.seq (.span accepts) q).Prefers (s ++ t) rest found := by
  rintro ⟨previous, offset, whole, captures⟩ hWhole
  obtain rfl : whole = s ++ t := hWhole
  obtain ⟨last, hLast, hOffset, hRecorded, hFirst⟩ :=
    hq (Cursor.after ⟨previous, offset, s ++ t, captures⟩ s t) rfl
  refine ⟨last, hLast, ?_, hRecorded, fun next accepted hNext => ?_⟩
  · rw [hOffset, List.length_append, ← Nat.add_assoc]
    rfl
  · refine spanMost_eq_of_longest hRead (fun more left hMore hText hClass previous offset => ?_)
      (hFirst next accepted hNext)
    exact hLonger more left hMore hText hClass _ next rfl

theorem look {test : Option Char → Text → Bool} (h : ∀ previous, test previous rest = true) :
    (Pattern.look test : Pattern ι).Prefers rest rest [] := by
  intro cursor hRest
  refine ⟨cursor, hRest, rfl, rfl, fun next accepted hNext => ?_⟩
  rw [run, hRest, h, if_pos rfl]
  exact hNext

theorem left (hp : p.Prefers s rest found) (q : Pattern ι) :
    (Pattern.either p q).Prefers s rest found := by
  intro cursor hRest
  obtain ⟨last, hLast, hOffset, hRecorded, hFirst⟩ := hp cursor hRest
  refine ⟨last, hLast, hOffset, hRecorded, fun next accepted hNext => ?_⟩
  rw [run, hFirst next accepted hNext]

theorem right (hp : p.Rejects s) (hq : q.Prefers s rest found) :
    (Pattern.either p q).Prefers s rest found := by
  intro cursor hRest
  obtain ⟨last, hLast, hOffset, hRecorded, hSecond⟩ := hq cursor hRest
  refine ⟨last, hLast, hOffset, hRecorded, fun next accepted hNext => ?_⟩
  rw [run_either (hp cursor next hRest)]
  exact hSecond next accepted hNext

theorem capture (name : ι) (hp : p.Prefers (s ++ rest) rest found) :
    (Pattern.capture name p).Prefers (s ++ rest) rest ((name, s) :: found) := by
  intro cursor hRest
  obtain ⟨last, hLast, hOffset, hRecorded, hFirst⟩ := hp cursor hRest
  refine ⟨{ last with captures := .between name cursor last :: last.captures }, hLast, hOffset, ?_,
    fun next accepted hNext => hFirst _ _ hNext⟩
  have hLength : last.offset - cursor.offset = s.length := by
    rw [List.length_append] at hOffset
    omega
  have hText : (Capture.between name cursor last).text = s := by
    rw [Capture.text, Capture.between, hLength, hRest, List.take_left]
  show (name, (Capture.between name cursor last).text) :: recorded last.captures = _
  rw [hText, hRecorded, List.cons_append]

theorem opt (hp : p.Prefers s rest found) : (Pattern.opt p).Prefers s rest found := hp.left _

/-- What is optional is left out where it cannot be read. -/
theorem opt_of_rejects (hp : p.Rejects rest) : (Pattern.opt p).Prefers rest rest [] :=
  .right hp (.empty rest)

theorem opt_all {ps qs : List (Pattern ι)} (h : (all (ps ++ qs)).Prefers s rest found) :
    (all (.opt (all ps) :: qs)).Prefers s rest found := by
  intro cursor hRest
  obtain ⟨last, hLast, hOffset, hRecorded, hFirst⟩ := h cursor hRest
  refine ⟨last, hLast, hOffset, hRecorded, fun next accepted hNext => ?_⟩
  rw [run_all_cons]
  refine run_opt_eq_some ?_
  rw [← run_all_append]
  exact hFirst next accepted hNext

/-- A capture of as few characters as possible goes on up to where the rest of the pattern is read,
if that is rejected in front of all later characters of it. -/
theorem lazy_seq (accepts : Char → Bool) (name : ι) (hNonempty : s ≠ [])
    (hRead : ∀ c ∈ s, accepts c = true)
    (hFail : ∀ before c after, s = before ++ c :: after → before ≠ [] →
      q.Rejects (c :: (after ++ t)))
    (hq : q.Prefers t rest found) :
    (Pattern.seq (Pattern.capture name (.spanLazy1 accepts)) q).Prefers (s ++ t) rest
      (found ++ [(name, s)]) := by
  rintro ⟨previous, offset, whole, captures⟩ hWhole
  obtain rfl : whole = s ++ t := hWhole
  obtain ⟨c, s, rfl⟩ := List.exists_cons_of_ne_nil hNonempty
  obtain ⟨last, hLast, hOffset, hRecorded, hFirst⟩ :=
    hq ⟨(c :: s).getLast?.or previous, offset + (c :: s).length, t,
    ⟨name, offset, c :: (s ++ t), (c :: s).length⟩ :: captures⟩ rfl
  refine ⟨last, hLast, ?_, ?_, fun next accepted hNext => ?_⟩
  · rw [hOffset, List.length_append, ← Nat.add_assoc]
  · have hText : (c :: (s ++ t)).take (c :: s).length = c :: s := List.take_left
    rw [hRecorded, recorded, List.map_cons, Capture.text, hText, List.append_assoc]
    rfl
  · rw [run]
    refine run_spanLazy1_cons hRead (fun before d after hEq previous offset captures => ?_) name
      (hFirst next accepted hNext)
    exact hFail (c :: before) d after (by rw [hEq]; rfl) (List.cons_ne_nil c before) _ next rfl

theorem span1 {accepts : Char → Bool} (hNonempty : s ≠ []) (hRead : ∀ c ∈ s, accepts c = true)
    (hRest : ∀ c ∈ rest.head?, accepts c = false) :
    (Pattern.span1 accepts : Pattern ι).Prefers (s ++ rest) rest [] := by
  obtain ⟨c, s, rfl⟩ := List.exists_cons_of_ne_nil hNonempty
  obtain ⟨hc, hRead⟩ := List.forall_mem_cons.mp hRead
  exact (char hc (s ++ rest)).seq (span hRead hRest)

theorem identifier (hName : s.isIdentifier = true)
    (hRest : ∀ c ∈ rest.head?, isNameChar c = false) :
    (Pattern.identifier : Pattern ι).Prefers (s ++ rest) rest [] := by
  obtain ⟨c, s, rfl, hc, hLater⟩ := exists_cons_of_isIdentifier hName
  exact (char hc (s ++ rest)).seq (span hLater hRest)

end Prefers

/-! ## Matches -/

/-- No match begins in a part of the text at each place of which the text ahead is rejected. -/
theorem readAllFrom_append
    (h : ∀ before c after, s = before ++ c :: after → p.Rejects (c :: (after ++ t)))
    (previous : Option Char) (offset : Nat) :
    p.readAllFrom 0 previous offset (s ++ t) =
      p.readAllFrom 0 (s.getLast?.or previous) (offset + s.length) t := by
  induction s generalizing previous offset with
  | nil => rfl
  | cons c s ih =>
    have hNone : p.readAt previous offset (c :: (s ++ t)) = none := by
      rw [readAt, h [] c s rfl _ _ rfl, Option.map_none]
    rw [List.cons_append, readAllFrom, hNone]
    dsimp only
    rw [ih fun before d after hEq => h (c :: before) d after (by rw [hEq]; rfl),
      Text.getLast?_cons_or, List.length_cons, Nat.add_assoc, Nat.add_comm 1]

theorem readAllFrom_eq_nil (h : ∀ before c after, t = before ++ c :: after → p.Rejects (c :: after))
    (previous : Option Char) (offset : Nat) : p.readAllFrom 0 previous offset t = [] := by
  have hAhead : ∀ before c after, t = before ++ c :: after → p.Rejects (c :: (after ++ [])) := by
    intro before c after hEq
    rw [List.append_nil]
    exact h before c after hEq
  have hNone := readAllFrom_append hAhead previous offset
  rwa [List.append_nil] at hNone

/-- What is preferred at a place is the match there, and the next one is looked for behind it. -/
theorem Prefers.readAllFrom_eq (h : p.Prefers (s ++ t) t found) {d : Char}
    (hEnd : s.getLast? = some d) (previous : Option Char) (offset : Nat) :
    ∃ captures, recorded captures = found ∧
      p.readAllFrom 0 previous offset (s ++ t) =
        ⟨offset, offset + s.length, captures⟩ :: p.readAllFrom 0 (some d)
          (offset + s.length) t := by
  obtain ⟨last, -, hOffset, hRecorded, hRun⟩ := h ⟨previous, offset, s ++ t, []⟩ rfl
  have hLast : last.offset = offset + s.length := by
    have hWhole : last.offset + t.length = offset + (s ++ t).length := hOffset
    rw [List.length_append] at hWhole
    omega
  refine ⟨last.captures, hRecorded.trans (List.append_nil found), ?_⟩
  rw [readAllFrom_of_run hEnd (hRun some last rfl) hLast, hLast]

end Pattern

end TemplateCheck
