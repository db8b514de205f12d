import Mathlib.Data.List.Forall2
import TemplateCheck.Proofs.Pattern.Agreement
import TemplateCheck.Proofs.Source.ImportText

/-!
# The search for import statements

A statement reaches up to the quote that closes its specifier (`closeOf`); the blanks and the
semicolon that a match takes behind it begin no other statement, so the search may as well go on at
that quote (`readAllFrom_of_core`). Hence two texts that agree up to a limit have the same
statements before it, as long as no statement of either text crosses the limit (`exists_sameIn`).
-/

namespace TemplateCheck

namespace Import

open Pattern (Cursor Match readAt readAllFrom)

/-- The offset behind the quote that closes the specifier of a match. -/
def closeOf (found : Match Part) : Nat := found.startOf .source + (found.text .source).length + 1

/-- A statement up to the end of its specifier, behind the edge at which it begins. -/
def corePart : Pattern Part :=
  .all [.lit "import", .blanks1, .opt typeWord, .opt defaultPart, .opt groupPart,
    .lit "from", .blanks, .either (specifier '"') (specifier '\'')]

/-- What a match takes behind the specifier. -/
def endPart : Pattern Part := .all [.blanks, .opt (.lit [';'])]

/-- The place that is reached behind the end of a specifier. -/
def endOf (cursor : Cursor Part) : Cursor Part := (endPart.run cursor some).getD cursor

/-! ## The end of a match -/

theorem exists_passed_of_endPart {a b : Cursor Part} (h : endPart.Reads a b) :
    b.captures = a.captures ∧
    ∃ read, a.rest = read ++ b.rest ∧ b.offset = a.offset + read.length ∧ ∀ c ∈ read,
      isBlank c = true ∨ c = ';' := by
  have hWithin : endPart.Within fun c => isBlank c = true ∨ c = ';' := by
    refine ⟨fun c hc => .inl hc, ⟨fun c hc => .inr (List.mem_singleton.mp hc), trivial⟩, trivial⟩
  have hPassed := h.exists_passed_within hWithin
  obtain ⟨c, hBlanks, hRest⟩ := h.seq_inv
  obtain ⟨d, hSemicolon, hEmpty⟩ := hRest.seq_inv
  obtain ⟨-, -, -, hFirst⟩ := hBlanks.span_inv
  cases hEmpty
  refine ⟨?_, hPassed⟩
  rcases hSemicolon.opt_inv with hLit | hSame
  · exact hLit.lit_inv.2.trans hFirst
  · rw [hSame, hFirst]

theorem exists_passed_endOf (cursor : Cursor Part) : endPart.run cursor some = some (endOf cursor) ∧
    (endOf cursor).captures = cursor.captures ∧ ∃ read, cursor.rest = read ++ (endOf cursor).rest ∧
      (endOf cursor).offset = cursor.offset + read.length ∧ ∀ c ∈ read,
        isBlank c = true ∨ c = ';' := by
  have hReads : endPart.Reads cursor (cursor.after [] cursor.rest) :=
    .seq (.span (List.nil_append _).symm (by simp)) (.seq (.right _ (.empty _)) (.empty _))
  have hSome : (endPart.run cursor some).isSome = true := hReads.isSome_run rfl rfl
  obtain ⟨last, hLast⟩ := Option.isSome_iff_exists.mp hSome
  have hEnd : endOf cursor = last := by rw [endOf, hLast, Option.getD_some]
  obtain ⟨later, hEndReads, hLater⟩ := Pattern.exists_reads_of_run hLast
  obtain rfl := Option.some.inj hLater
  rw [hEnd]
  exact ⟨hLast, exists_passed_of_endPart hEndReads⟩

/-! ## Matches -/

/-- Whether a statement may begin between a character and a text. -/
def startsWord (previous : Option Char) (t : Text) : Bool :=
  Pattern.inWord previous != Pattern.inWord t.head?

theorem run_statement (cursor : Cursor Part) : statement.run cursor some =
    if startsWord cursor.previous cursor.rest then (corePart.run cursor some).map
      endOf else none := by
  have hEnd : (fun later => endPart.run later some) = fun later => (some later).map endOf :=
    funext fun later => (exists_passed_endOf later).1
  have hRun : statement.run cursor some =
      if startsWord cursor.previous cursor.rest then corePart.run cursor fun later =>
        endPart.run later some
        else none := rfl
  rw [hRun, hEnd, Pattern.run_map]

/-- The specifier is recorded last, and its closing quote ends what is read. -/
theorem closeOf_of_reads {a core : Cursor Part} (h : corePart.Reads a core) (start stop : Nat) :
    closeOf ⟨start, stop, core.captures⟩ = core.offset := by
  obtain ⟨b, -, hSpecifier⟩ := h.last_of_all rfl
  obtain ⟨quote, hQuoted⟩ : ∃ quote, (specifier quote).Reads b core := by
    cases hSpecifier with
    | left _ hFirst => exact ⟨_, hFirst⟩
    | right _ hSecond => exact ⟨_, hSecond⟩
  obtain ⟨c, -, hInside⟩ := hQuoted.seq_inv
  obtain ⟨d, hCapture, hClosing⟩ := hInside.seq_inv
  obtain ⟨e, hQuote, hEmpty⟩ := hClosing.seq_inv
  cases hEmpty
  cases hQuote
  cases hCapture with
  | @capture _ _ inside _ hBody =>
    obtain ⟨read, hRest, hOffset⟩ := hBody.exists_passed
    have hText : (Pattern.Capture.between Part.source c inside).text = read := by
      show c.rest.take (inside.offset - c.offset) = read
      rw [hOffset, Nat.add_sub_cancel_left, hRest, List.take_left]
    show c.offset + (Pattern.Capture.between Part.source c inside).text.length + 1 =
        inside.offset + 1
    rw [hText, hOffset]

theorem readAllFrom_of_core {previous : Option Char} {offset : Nat} {t : Text}
    (hStart : startsWord previous t = true) {core : Cursor Part}
    (hCore : corePart.run ⟨previous, offset, t, []⟩ some = some core) :
    ∃ read found, read ≠ [] ∧
    t = read ++ core.rest ∧ core.offset = offset + read.length ∧ found.start = offset ∧
      found.captures = core.captures ∧ closeOf found = core.offset ∧
      statement.readAllFrom 0 previous offset t =
        found :: statement.readAllFrom 0 (read.getLast?.or previous) core.offset core.rest := by
  obtain ⟨later, hReads, hLater⟩ := Pattern.exists_reads_of_run hCore
  obtain rfl := Option.some.inj hLater
  obtain ⟨read, hRead, hOffset⟩ := hReads.exists_passed
  obtain ⟨-, hCaptures, behind, hRest, hStop, hBehind⟩ := exists_passed_endOf later
  have hNonempty : read ≠ [] := by
    obtain ⟨b, hWord, hMore⟩ := hReads.seq_inv
    obtain ⟨more, -, hLater⟩ := hMore.exists_passed
    have hWordEnd : b.offset = offset + 6 := hWord.offset_lit
    rintro rfl
    have hNone : later.offset = offset + 0 := hOffset
    omega
  have hRun : statement.run ⟨previous, offset, t, []⟩ some = some (endOf later) := by
    rw [run_statement, hCore]
    exact if_pos hStart
  refine ⟨read, ⟨offset, (endOf later).offset, later.captures⟩, hNonempty, hRead, hOffset, rfl, rfl,
    closeOf_of_reads hReads _ _, ?_⟩
  have hText : t = (read ++ behind) ++ (endOf later).rest := by
    rw [List.append_assoc, ← hRest]
    exact hRead
  obtain ⟨d, hd⟩ : ∃ d, (read ++ behind).getLast? = some d :=
    ⟨_, List.getLast?_eq_some_getLast (List.append_ne_nil_of_left_ne_nil hNonempty behind)⟩
  have hLast : (endOf later).offset = offset + (read ++ behind).length := by
    rw [hStop, hOffset, List.length_append, Nat.add_assoc]
  have hSkip : statement.readAllFrom 0 (read.getLast?.or previous) later.offset later.rest =
      statement.readAllFrom 0 (some d) (endOf later).offset (endOf later).rest := by
    have hNone : ∀ before c after, behind = before ++ c :: after →
        statement.Rejects (c :: (after ++ (endOf later).rest)) := by
      intro before c after hEq
      refine rejects_statement_of_ne ?_
      rintro c ⟨⟩
      rcases hBehind c (by simp [hEq]) with hBlank | rfl
      · exact ne_of_class hBlank (by decide)
      · decide
    rw [hRest, Pattern.readAllFrom_append hNone, hStop, ← Option.or_assoc, ← List.getLast?_append,
      hd, Option.some_or]
  rw [hSkip, ← hCaptures]
  rw [hText] at hRun ⊢
  exact Pattern.readAllFrom_of_run hd hRun hLast

theorem readAllFrom_of_no_core {previous : Option Char} {offset : Nat} {c : Char} {t : Text}
    (h : startsWord previous (c :: t) = true →
      corePart.run ⟨previous, offset, c :: t, []⟩ some = none) :
    statement.readAllFrom 0 previous offset (c :: t) =
      statement.readAllFrom 0 (some c) (offset + 1) t := by
  have hNone : statement.readAt previous offset (c :: t) = none := by
    rw [readAt, run_statement]
    split_ifs with hStart
    · rw [h hStart]
      rfl
    · rfl
  rw [readAllFrom, hNone]

/-! ## Texts that agree up to a limit -/

/-- Two matches of one statement, which start at the same place and record the same texts. -/
structure SameStatement (found found' : Match Part) : Prop where
  start_eq : found'.start = found.start
  recorded_eq : Pattern.recorded found'.captures = Pattern.recorded found.captures

/-- No match of a list crosses the limit: each one closes up to it or starts behind it. -/
def NoneCrosses (limit : Nat) (founds : List (Match Part)) : Prop :=
  ∀ found ∈ founds, closeOf found ≤ limit ∨ limit ≤ found.start

/-- Before `t` and before `t'`, the searches from an offset on pass the text `read`, with the same
statements in it, and go on behind it. -/
structure SameIn (previous : Option Char) (offset : Nat) (read t t' : Text)
    (founds founds' : List (Match Part)) : Prop where
  same : List.Forall₂ SameStatement founds founds'
  starts : ∀ found ∈ founds, offset ≤ found.start ∧ found.start < offset + read.length
  search : statement.readAllFrom 0 previous offset (read ++ t) =
    founds ++ statement.readAllFrom 0 (read.getLast?.or previous) (offset + read.length) t
  search' : statement.readAllFrom 0 previous offset (read ++ t') =
    founds' ++ statement.readAllFrom 0 (read.getLast?.or previous) (offset + read.length) t'

namespace SameIn

theorem nil (previous : Option Char) (offset : Nat) (t t' : Text) :
    SameIn previous offset [] t t' [] [] where
  same := .nil
  starts := by simp
  search := rfl
  search' := rfl

theorem append {previous : Option Char} {offset : Nat} {read later t t' : Text}
    {founds founds' laterFounds laterFounds' : List (Match Part)}
    (h : SameIn previous offset read (later ++ t) (later ++ t') founds founds')
    (hLater : SameIn (read.getLast?.or previous) (offset + read.length) later t t'
      laterFounds laterFounds') :
    SameIn previous offset (read ++ later) t t' (founds ++ laterFounds)
      (founds' ++ laterFounds') where
  same := List.rel_append h.same hLater.same
  starts := by
    rw [List.length_append, ← Nat.add_assoc]
    refine List.forall_mem_append.mpr ⟨fun found hMem => ?_, fun found hMem => ?_⟩
    · obtain ⟨hStart, hStop⟩ := h.starts found hMem
      omega
    · obtain ⟨hStart, hStop⟩ := hLater.starts found hMem
      omega
  search := by
    rw [List.append_assoc, h.search, hLater.search, List.append_assoc, List.getLast?_append,
      Option.or_assoc, List.length_append, Nat.add_assoc]
  search' := by
    rw [List.append_assoc, h.search', hLater.search', List.append_assoc, List.getLast?_append,
      Option.or_assoc, List.length_append, Nat.add_assoc]

end SameIn

section

variable {previous : Option Char} {offset : Nat} {c : Char} {common x x' : Text}

/-- Where no statement begins, both searches go on with the next character. -/
theorem sameIn_of_no_core
    (h : startsWord previous (c :: (common ++ x)) = true →
      corePart.run ⟨previous, offset, c :: (common ++ x), []⟩ some = none)
    (h' : startsWord previous (c :: (common ++ x')) = true →
      corePart.run ⟨previous, offset, c :: (common ++ x'), []⟩ some = none) :
    SameIn previous offset [c] (common ++ x) (common ++ x') [] [] where
  same := .nil
  starts := by simp
  search := readAllFrom_of_no_core h
  search' := readAllFrom_of_no_core h'

/-- Where the same core is read in both texts, both searches go on behind it. -/
theorem exists_sameIn_of_alike {limit : Nat} (hStart : startsWord previous (c :: common) = true)
    {core core' : Cursor Part}
    (hCore : corePart.run ⟨previous, offset, (c :: common) ++ x, []⟩ some = some core)
    (hCore' : corePart.run ⟨previous, offset, (c :: common) ++ x', []⟩ some = some core')
    (hAlike : Pattern.Alike x x' limit core core') :
    ∃ read later founds founds', read ≠ [] ∧
    c :: common = read ++ later ∧
      SameIn previous offset read (later ++ x) (later ++ x') founds founds' := by
  have hStartLeft : startsWord previous ((c :: common) ++ x) = true := hStart
  have hStartRight : startsWord previous ((c :: common) ++ x') = true := hStart
  obtain ⟨read, found, hNonempty, hText, hStop, hFound, hCaptures, -, hRead⟩ :=
    readAllFrom_of_core hStartLeft hCore
  obtain ⟨read', found', -, hText', hStop', hFound', hCaptures', -, hRead'⟩ :=
    readAllFrom_of_core hStartRight hCore'
  obtain ⟨later, hCommon, rfl, hRest, hRest', -⟩ := hAlike.exists_append hText hText'
  have hSame : SameStatement found found' :=
    { start_eq := hFound'.trans hFound.symm
      recorded_eq := by rw [hCaptures, hCaptures', hAlike.recorded_eq] }
  refine ⟨read, later, [found], [found'], hNonempty, hCommon, .cons hSame .nil, ?_, ?_, ?_⟩
  · have hPositive := List.length_pos_iff.mpr hNonempty
    rw [List.forall_mem_singleton, hFound]
    omega
  · rw [← hRest, ← hText, ← hStop]
    exact hRead
  · rw [← hRest', ← hText', ← hStop']
    exact hRead'

theorem not_noneCrosses {limit : Nat} {t : Text} (hLimit : offset < limit)
    (hStart : startsWord previous t = true) {core : Cursor Part}
    (hCore : corePart.run ⟨previous, offset, t, []⟩ some = some core)
    (hBeyond : limit < core.offset) :
    ¬ NoneCrosses limit (statement.readAllFrom 0 previous offset t) := by
  obtain ⟨read, found, -, -, -, hFound, -, hClose, hRead⟩ := readAllFrom_of_core hStart hCore
  rw [hRead]
  intro h
  rcases h found List.mem_cons_self with hBefore | hBehind
  · omega
  · omega

/-- One step of both searches in what the texts have in common. -/
theorem exists_sameIn_step
    (h : NoneCrosses (offset + (c :: common).length)
      (statement.readAllFrom 0 previous offset ((c :: common) ++ x)))
    (h' : NoneCrosses (offset + (c :: common).length)
      (statement.readAllFrom 0 previous offset ((c :: common) ++ x'))) :
    ∃ read later founds founds', read ≠ [] ∧ c :: common = read ++ later ∧
      SameIn previous offset read (later ++ x) (later ++ x') founds founds' := by
  have hLimit : offset < offset + (c :: common).length :=
    Nat.lt_add_of_pos_right (Nat.succ_pos common.length)
  have hAlike : Pattern.Alike x x' (offset + (c :: common).length)
      (⟨previous, offset, (c :: common) ++ x, []⟩ : Cursor Part) ⟨previous, offset,
        (c :: common) ++ x', []⟩ :=
    ⟨⟨c :: common, rfl, rfl, rfl⟩, rfl, rfl⟩
  have hAgree := Pattern.Agree.run (p := corePart) rfl .accept hAlike
  by_cases hStart : startsWord previous (c :: common) = true
  · generalize hCore : corePart.run ⟨previous, offset, (c :: common) ++ x, []⟩ some = r at hAgree
    generalize hCore' : corePart.run ⟨previous, offset, (c :: common) ++ x', []⟩ some = r' at hAgree
    cases hAgree with
    | none =>
      refine ⟨[c], common, [], [], List.cons_ne_nil c [], rfl, sameIn_of_no_core ?_ ?_⟩
      · exact fun _ => hCore
      · exact fun _ => hCore'
    | alike hCores => exact exists_sameIn_of_alike hStart hCore hCore' hCores
    | left hBeyond => exact absurd h (not_noneCrosses hLimit hStart hCore hBeyond)
    | right _ hBeyond => exact absurd h' (not_noneCrosses hLimit hStart hCore' hBeyond)
  · refine ⟨[c], common, [], [], List.cons_ne_nil c [], rfl, sameIn_of_no_core ?_ ?_⟩
    · exact fun hTrue => absurd hTrue hStart
    · exact fun hTrue => absurd hTrue hStart

/-- Where two texts agree up to a limit that no statement crosses, they have the same
statements before it. -/
theorem exists_sameIn
    (h : NoneCrosses (offset + common.length)
      (statement.readAllFrom 0 previous offset (common ++ x)))
    (h' : NoneCrosses (offset + common.length)
      (statement.readAllFrom 0 previous offset (common ++ x'))) :
    ∃ founds founds', SameIn previous offset common x x' founds founds' := by
  induction hLength : common.length using Nat.strong_induction_on
    generalizing common previous offset with
  | _ length ih =>
    cases common with
    | nil => exact ⟨[], [], .nil previous offset x x'⟩
    | cons c common =>
      obtain ⟨read, later, founds, founds', hNonempty, hCommon, hStep⟩ := exists_sameIn_step h h'
      rw [hCommon] at h h' hLength ⊢
      rw [List.length_append] at h h' hLength
      rw [List.append_assoc, hStep.search, ← Nat.add_assoc] at h
      rw [List.append_assoc, hStep.search', ← Nat.add_assoc] at h'
      have hShorter : later.length < length := by
        have hPositive := List.length_pos_iff.mpr hNonempty
        omega
      obtain ⟨laterFounds, laterFounds', hLater⟩ := ih later.length hShorter
        (fun found hMem => h found (List.mem_append_right founds hMem))
        (fun found hMem => h' found (List.mem_append_right founds' hMem)) rfl
      exact ⟨founds ++ laterFounds, founds' ++ laterFounds', hStep.append hLater⟩

end

end Import

end TemplateCheck
