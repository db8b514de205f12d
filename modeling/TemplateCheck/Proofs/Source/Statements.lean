import Mathlib.Tactic.Common
import TemplateCheck.Proofs.Text.BracketKind
import TemplateCheck.Proofs.Text.Slice
import TemplateCheck.Source.Class

/-!
# Statements of a class body

A class body is cut at the semicolons and the line breaks outside brackets. A brace that closes a
block there ends a statement too, and what was read of it is given up: that is meant for the bodies
of methods, but the block may as well be a part of a type or of a value. `leftFrom` is what is left
of a text behind the last brace of this kind.

1. Behind a text without such a brace that closes its brackets, the cutting goes on in the statement
   in which it was (`statementsFrom_of_whole`).
2. Behind one with such a brace it goes on in a statement that starts with what is left
   (`exists_statementsFrom_of_left`).
3. So a text with blanks in front of it and a semicolon behind it is a statement, or what is left of
   it is one (`exists_statement_of_whole`, `exists_statement_of_left`).
-/

namespace TemplateCheck

namespace ClassDeclaration

/-- What is left of a text behind the last brace that closes a block outside all other brackets, if
there is one. `depth` is the number of brackets open in front of the text. -/
def leftFrom (depth : Nat) : Text → Option Text
  | [] => none
  | c :: t =>
    if c ∈ ['(', '[', '{'] then leftFrom (depth + 1) t
    else if c ∈ [')', ']', '}'] then
      if depth = 1 ∧ c = '}' then some ((leftFrom 0 t).getD t) else leftFrom (depth - 1) t
    else leftFrom depth t

/-- Whether something in the text is not blank. -/
def hasInk (t : Text) : Bool := t.any fun c => !isBlank c

/-! ## Single characters -/

section

variable {c : Char} {depth : Int} (start offset : Nat) (ink : Bool) (t : Text)

theorem statementsFrom_opening (hc : c ∈ ['(', '[', '{']) :
    statementsFrom depth start offset ink (c :: t) =
      statementsFrom (depth + 1) start (offset + 1) true t := by
  simp only [List.mem_cons, List.not_mem_nil, or_false] at hc
  rcases hc with rfl | rfl | rfl <;> rfl

theorem statementsFrom_block :
    statementsFrom 1 start offset ink ('}' :: t) =
      statementsFrom 0 (offset + 1) (offset + 1) false t := rfl

theorem statementsFrom_closing (hc : c ∈ [')', ']', '}']) (hBlock : ¬ (depth = 1 ∧ c = '}')) :
    statementsFrom depth start offset ink (c :: t) =
      statementsFrom (depth - 1) start (offset + 1) true t := by
  simp only [List.mem_cons, List.not_mem_nil, or_false] at hc
  rw [statementsFrom, if_neg, if_pos, if_neg hBlock] <;> rcases hc with rfl | rfl | rfl <;> decide

theorem statementsFrom_other (hBracket : Text.isBracket c = false)
    (hEnd : ¬ ((c = ';' ∨ c = '\n') ∧ depth = 0)) :
    statementsFrom depth start offset ink (c :: t) =
      statementsFrom depth start (offset + 1) (ink || !isBlank c) t := by
  have hNot := of_decide_eq_false hBracket
  simp only [List.mem_cons, List.not_mem_nil, or_false, not_or] at hNot
  rw [statementsFrom, if_neg (by simp [hNot]), if_neg (by simp [hNot]), if_neg hEnd]

theorem statementsFrom_end (hc : c = ';' ∨ c = '\n') : statementsFrom 0 start offset ink (c :: t) =
    (if ink then [(start, offset)] else []) ++
      statementsFrom 0 (offset + 1) (offset + 1) false t := by
  rcases hc with rfl | rfl <;> cases ink <;> rfl

end

theorem isBlank_of_isBracket {c : Char} (h : Text.isBracket c = true) : isBlank c = false := by
  refine Bool.eq_false_iff.mpr fun hBlank => ?_
  rw [Text.isBracket_of_isBlank hBlank] at h
  cases h

theorem isBracket_of_opening {c : Char} (h : c ∈ ['(', '[', '{']) : Text.isBracket c = true :=
  decide_eq_true (List.mem_append_left [')', ']', '}'] h)

theorem isBracket_of_closing {c : Char} (h : c ∈ [')', ']', '}']) : Text.isBracket c = true :=
  decide_eq_true (List.mem_append_right ['(', '[', '{'] h)

theorem isBracket_of_neither {c : Char} (hOpening : c ∉ ['(', '[', '{'])
    (hClosing : c ∉ [')', ']', '}']) :
    Text.isBracket c = false :=
  decide_eq_false fun hMem => (List.mem_append.mp hMem).elim hOpening hClosing

theorem hasInk_cons (c : Char) (t : Text) : hasInk (c :: t) = (!isBlank c || hasInk t) := rfl

/-! ## Texts that close their brackets -/

section

variable {depth : Nat} {s : Text}

theorem statementsFrom_of_whole (hBalanced : Text.balancedFrom depth s = true)
    (hEnds : ∀ c ∈ s, ¬ (c = ';' ∨ c = '\n')) (hWhole : leftFrom depth s = none)
    (start offset : Nat) (ink : Bool) (t : Text) :
    statementsFrom depth start offset ink (s ++ t) =
      statementsFrom 0 start (offset + s.length) (ink || hasInk s) t := by
  induction s generalizing depth offset ink with
  | nil =>
    obtain rfl : depth = 0 := of_decide_eq_true hBalanced
    simp [hasInk]
  | cons c s ih =>
    obtain ⟨hc, hEnds⟩ := List.forall_mem_cons.mp hEnds
    unfold Text.balancedFrom at hBalanced
    rw [leftFrom] at hWhole
    rw [List.cons_append, List.length_cons, Nat.add_comm s.length, ← Nat.add_assoc, hasInk_cons]
    split_ifs at hBalanced hWhole with hOpening hClosing hBlock
    · rw [statementsFrom_opening _ _ _ _ hOpening,
        isBlank_of_isBracket (isBracket_of_opening hOpening)]
      simpa using ih hBalanced hEnds hWhole (offset + 1) true
    · cases depth with
      | zero => cases hBalanced
      | succ depth =>
        have hOther : ¬ (((depth + 1 : Nat) : Int) = 1 ∧ c = '}') := fun h => hBlock ⟨by omega, h.2⟩
        rw [statementsFrom_closing _ _ _ _ hClosing hOther,
          isBlank_of_isBracket (isBracket_of_closing hClosing)]
        simpa using ih hBalanced hEnds hWhole (offset + 1) true
    · rw [statementsFrom_other _ _ _ _ (isBracket_of_neither hOpening hClosing) fun h => hc h.1,
        ← Bool.or_assoc]
      exact ih hBalanced hEnds hWhole (offset + 1) _

/-- Behind the last brace that closes a block, a statement starts. -/
theorem exists_statementsFrom_of_left {left : Text} (hBalanced : Text.balancedFrom depth s = true)
    (hEnds : ∀ c ∈ s, ¬ (c = ';' ∨ c = '\n')) (hLeft : leftFrom depth s = some left)
    (start offset : Nat) (ink : Bool) (t : Text) :
    ∃ before, s = before ++ left ∧
    statementsFrom depth start offset ink (s ++ t) =
      statementsFrom 0 (offset + before.length) (offset + s.length) (hasInk left) t := by
  induction s generalizing depth start offset ink with
  | nil => cases hLeft
  | cons c s ih =>
    obtain ⟨-, hEnds'⟩ := List.forall_mem_cons.mp hEnds
    unfold Text.balancedFrom at hBalanced
    rw [leftFrom] at hLeft
    -- The brace that counts stands behind the first character.
    have hLater {depth' : Nat} (start' : Nat) (ink' : Bool)
        (hBalanced : Text.balancedFrom depth' s = true)
        (hLeft : leftFrom depth' s = some left)
        (hStep : statementsFrom depth start offset ink (c :: (s ++ t)) =
          statementsFrom depth' start' (offset + 1) ink' (s ++ t)) :
        ∃ before, c :: s = before ++ left ∧ statementsFrom depth start offset ink (c :: s ++ t) =
          statementsFrom 0 (offset + before.length) (offset + (c :: s).length) (hasInk left) t := by
      obtain ⟨before, hText, hStatements⟩ := ih hBalanced hEnds' hLeft start' (offset + 1) ink'
      refine ⟨c :: before, by rw [hText, List.cons_append], ?_⟩
      rw [List.cons_append, hStep, hStatements, List.length_cons, List.length_cons,
        Nat.add_assoc, Nat.add_assoc, Nat.add_comm 1, Nat.add_comm 1]
    split_ifs at hBalanced hLeft with hOpening hClosing hBlock
    · exact hLater _ _ hBalanced hLeft (statementsFrom_opening _ _ _ _ hOpening)
    · obtain ⟨rfl, rfl⟩ := hBlock
      cases hMore : leftFrom 0 s with
      | some more =>
        obtain rfl : more = left := by simpa [hMore] using hLeft
        exact hLater _ _ hBalanced hMore (statementsFrom_block _ _ _ _)
      | none =>
        obtain rfl : s = left := by simpa [hMore] using hLeft
        have hRest := statementsFrom_of_whole hBalanced hEnds' hMore (offset + 1)
          (offset + 1) false t
        have hLength : offset + ('}' :: s).length = offset + 1 + s.length := by
          rw [List.length_cons, Nat.add_comm s.length, ← Nat.add_assoc]
        refine ⟨['}'], rfl, ?_⟩
        rw [hLength]
        exact hRest
    · cases depth with
      | zero => cases hBalanced
      | succ depth =>
        have hOther : ¬ (((depth + 1 : Nat) : Int) = 1 ∧ c = '}') := fun h => hBlock ⟨by omega, h.2⟩
        refine hLater start true hBalanced hLeft ?_
        rw [statementsFrom_closing _ _ _ _ hClosing hOther]
        simp
    · have hNot : ¬ (c = ';' ∨ c = '\n') := hEnds c List.mem_cons_self
      exact hLater _ _ hBalanced hLeft
        (statementsFrom_other _ _ _ _ (isBracket_of_neither hOpening hClosing) fun h => hNot h.1)

end

/-- Over blanks no statement is read, and the next one starts in front of them or behind a
line break among them. -/
theorem exists_start_of_blanks {gap : Text} (hGap : ∀ c ∈ gap, isBlank c = true)
    (start offset : Nat) (t : Text) :
    ∃ start', statementsFrom 0 start offset false (gap ++ t) =
        statementsFrom 0 start' (offset + gap.length) false t ∧
      (start' = start ∨ ∃ before indent, gap = before ++ indent ∧
        start' = offset + before.length) := by
  induction gap generalizing start offset with
  | nil => exact ⟨start, rfl, .inl rfl⟩
  | cons c gap ih =>
    obtain ⟨hc, hGap⟩ := List.forall_mem_cons.mp hGap
    rw [List.cons_append, List.length_cons, Nat.add_comm gap.length, ← Nat.add_assoc]
    by_cases hBreak : c = '\n'
    · obtain ⟨start', hStatements, hStart⟩ := ih hGap (offset + 1) (offset + 1)
      rw [statementsFrom_end _ _ _ _ (.inr hBreak), if_neg Bool.false_ne_true, List.nil_append]
      refine ⟨start', hStatements, .inr ?_⟩
      rcases hStart with rfl | ⟨before, indent, rfl, rfl⟩
      · exact ⟨[c], gap, rfl, rfl⟩
      · exact ⟨c :: before, indent, rfl, by rw [List.length_cons]; omega⟩
    · have hEnd : ¬ ((c = ';' ∨ c = '\n') ∧ (0 : Int) = 0) := by
        rintro ⟨rfl | rfl, -⟩
        · exact absurd hc (by decide)
        · exact hBreak rfl
      obtain ⟨start', hStatements, hStart⟩ := ih hGap start (offset + 1)
      rw [statementsFrom_other _ _ _ _ (Text.isBracket_of_isBlank hc) hEnd, hc]
      refine ⟨start', hStatements, hStart.imp_right ?_⟩
      rintro ⟨before, indent, rfl, rfl⟩
      exact ⟨c :: before, indent, rfl, by rw [List.length_cons]; omega⟩

theorem exists_statementsFrom_of_blanks {gap : Text} (hGap : ∀ c ∈ gap, isBlank c = true)
    (offset : Nat) (t : Text) :
    ∃ before indent, gap = before ++ indent ∧ statementsFrom 0 offset offset false (gap ++ t) =
      statementsFrom 0 (offset + before.length) (offset + gap.length) false t := by
  obtain ⟨start, hStatements, rfl | ⟨before, indent, hText, rfl⟩⟩ :=
    exists_start_of_blanks hGap offset offset t
  · exact ⟨[], gap, rfl, hStatements⟩
  · exact ⟨before, indent, hText, hStatements⟩

/-! ## Statements -/

section

variable {gap s : Text} (hGap : ∀ c ∈ gap, isBlank c = true)
  (hBalanced : Text.balancedFrom 0 s = true) (hEnds : ∀ c ∈ s, ¬ (c = ';' ∨ c = '\n'))
include hGap hBalanced hEnds

/-- A text in which no block is closed is a statement, with blanks in front of it. -/
theorem exists_statement_of_whole (hWhole : leftFrom 0 s = none) (hInk : hasInk s = true)
    (offset : Nat) (t : Text) :
    ∃ before indent, gap = before ++ indent ∧
      statementsFrom 0 offset offset false (gap ++ (s ++ ';' :: t)) =
      (offset + before.length, offset + gap.length + s.length) ::
        statementsFrom 0 (offset + gap.length + s.length + 1)
          (offset + gap.length + s.length + 1) false t := by
  obtain ⟨before, indent, hText, hStart⟩ :=
    exists_statementsFrom_of_blanks hGap offset (s ++ ';' :: t)
  have hStatement := statementsFrom_of_whole hBalanced hEnds hWhole (offset + before.length)
    (offset + gap.length) false
    (';' :: t)
  rw [Int.natCast_zero, hInk] at hStatement
  refine ⟨before, indent, hText, ?_⟩
  rw [hStart, hStatement, statementsFrom_end _ _ _ _ (.inl rfl)]
  rfl

/-- Of another text, what the last block leaves is a statement, if it is not blank. -/
theorem exists_statement_of_left {left : Text} (hLeft : leftFrom 0 s = some left) (offset : Nat)
    (t : Text) :
    ∃ lost, s = lost ++ left ∧ statementsFrom 0 offset offset false (gap ++ (s ++ ';' :: t)) =
      (if hasInk left then [(offset + gap.length + lost.length,
        offset + gap.length + s.length)] else []) ++
        statementsFrom 0 (offset + gap.length + s.length + 1)
          (offset + gap.length + s.length + 1) false t := by
  obtain ⟨before, indent, -, hStart⟩ := exists_statementsFrom_of_blanks hGap offset (s ++ ';' :: t)
  obtain ⟨lost, hText, hStatement⟩ :=
    exists_statementsFrom_of_left hBalanced hEnds hLeft (offset + before.length)
    (offset + gap.length) false (';' :: t)
  rw [Int.natCast_zero] at hStatement
  refine ⟨lost, hText, ?_⟩
  rw [hStart, hStatement, statementsFrom_end _ _ _ _ (.inl rfl)]

end

end ClassDeclaration

end TemplateCheck
