import TemplateCheck.Proofs.Text.Bracket
import TemplateCheck.Proofs.Text.Group

/-!
# Kinds of brackets

A text is cut by the depth in all its brackets, but the parentheses around it are found by counting
parentheses alone. The two counts only go together where each kind of brackets closes on its own
(`ClosesKind`): the parentheses here, and all other brackets there.

For such a text the depth comes back to zero (`depthFrom_of_closes`), a group at its start ends
inside it whatever follows (`isParenthesized_append`), and parentheses around it leave no cut to be
met (`uncut_of_isParenthesized`). Parentheses, square brackets and braces that each close on their
own are closed when they are counted together (`balanced_of_closesKinds`).
-/

namespace TemplateCheck

namespace Text

/-! ## Counting one kind -/

/-- How much deeper in brackets of a kind a character leads. -/
def kindNesting (ofKind : Char → Bool) (previous : Option Char) (c : Char) : Int :=
  if ofKind c then nesting previous c else 0

/-- The number of open brackets of a kind after a text, none if it closes one that is not open. -/
def openAfter? (ofKind : Char → Bool) : (previous : Option Char) → (count : Int) → Text → Option Int
  | _, count, [] => some count
  | previous, count, c :: t =>
    let count := count + kindNesting ofKind previous c
    if count < 0 then none else openAfter? ofKind (some c) count t

/-- The text closes all brackets of a kind that it opens and no others. -/
def ClosesKind (ofKind : Char → Bool) (t : Text) : Prop := openAfter? ofKind none 0 t = some 0

instance (ofKind : Char → Bool) (t : Text) : Decidable (ClosesKind ofKind t) :=
  inferInstanceAs (Decidable (openAfter? ofKind none 0 t = some 0))

/-- Whether the character is a parenthesis. -/
def isParenthesis (c : Char) : Bool := c = '(' || c = ')'

/-- Whether the character is a bracket but no parenthesis, or no bracket at all. -/
def isOther (c : Char) : Bool := !isParenthesis c

theorem openAfter?_cons {ofKind : Char → Bool} {previous : Option Char} {count last : Int}
    {c : Char} {t : Text} :
    openAfter? ofKind previous count (c :: t) = some last ↔
      0 ≤ count + kindNesting ofKind previous c ∧
        openAfter? ofKind (some c) (count + kindNesting ofKind previous c) t = some last := by
  rw [openAfter?]
  by_cases hNegative : count + kindNesting ofKind previous c < 0
  · rw [if_pos hNegative]
    exact iff_of_false (Option.some_ne_none _).symm fun h => by omega
  · rw [if_neg hNegative]
    exact ⟨fun h => ⟨by omega, h⟩, fun h => h.2⟩

theorem kindNesting_add (previous : Option Char) (c : Char) :
    kindNesting isParenthesis previous c + kindNesting isOther previous c = nesting previous c := by
  unfold kindNesting isOther
  cases isParenthesis c with
  | true => exact Int.add_zero _
  | false => exact Int.zero_add _

theorem kindNesting_of_not {c : Char} (h : isParenthesis c = false) (previous : Option Char) :
    kindNesting isParenthesis previous c = 0 ∧
    kindNesting isOther previous c = nesting previous c := by
  unfold kindNesting isOther
  rw [h]
  exact ⟨rfl, rfl⟩

theorem isParenthesis_cases (c : Char) : c = '(' ∨ c = ')' ∨ isParenthesis c = false := by
  cases h : isParenthesis c with
  | true =>
    exact (Bool.or_eq_true_iff.mp h).imp of_decide_eq_true fun hc => .inl (of_decide_eq_true hc)
  | false => exact .inr (.inr rfl)

/-- What stands before a bracket does not count, unless it may be the end of an arrow. -/
theorem kindNesting_congr {ofKind : Char → Bool} (hTip : ofKind '>' = false)
    (previous previous' : Option Char) (c : Char) :
    kindNesting ofKind previous c = kindNesting ofKind previous' c := by
  unfold kindNesting
  by_cases hKind : ofKind c = true
  · have hNot : c ≠ '>' := ne_of_class hKind hTip
    have hArrow : ∀ previous : Option Char, ¬ (c = '>' ∧ previous = some '=') := fun _ h => hNot h.1
    rw [if_pos hKind, if_pos hKind]
    unfold nesting
    rw [if_neg (hArrow previous), if_neg (hArrow previous')]
  · rw [if_neg hKind, if_neg hKind]

theorem openAfter?_add {ofKind : Char → Bool} (hTip : ofKind '>' = false)
    {previous previous' : Option Char} {count last more : Int} {t : Text} (hMore : 0 ≤ more)
    (h : openAfter? ofKind previous count t = some last) :
    openAfter? ofKind previous' (count + more) t = some (last + more) := by
  induction t generalizing previous previous' count with
  | nil =>
    obtain rfl := Option.some.inj h
    rfl
  | cons c t ih =>
    obtain ⟨hNonneg, hRest⟩ := openAfter?_cons.mp h
    rw [kindNesting_congr hTip _ previous'] at hNonneg hRest
    rw [openAfter?_cons, Int.add_right_comm]
    exact ⟨by omega, ih hRest⟩

theorem openAfter?_append {ofKind : Char → Bool} (hTip : ofKind '>' = false)
    {previous previous' : Option Char} {count middle last : Int} {s t : Text}
    (hs : openAfter? ofKind previous count s = some middle)
    (ht : openAfter? ofKind previous' middle t = some last) :
    openAfter? ofKind previous count (s ++ t) = some last := by
  induction s generalizing previous count with
  | nil =>
    obtain rfl := Option.some.inj hs
    have hSame : openAfter? ofKind previous (count + 0) t = some (last + 0) :=
      openAfter?_add hTip (Int.le_refl 0) ht
    rwa [Int.add_zero, Int.add_zero] at hSame
  | cons c s ih =>
    obtain ⟨hNonneg, hRest⟩ := openAfter?_cons.mp hs
    rw [List.cons_append, openAfter?_cons]
    exact ⟨hNonneg, ih hRest⟩

theorem ClosesKind.append {ofKind : Char → Bool} (hTip : ofKind '>' = false) {s t : Text}
    (hs : ClosesKind ofKind s) (ht : ClosesKind ofKind t) : ClosesKind ofKind (s ++ t) :=
  openAfter?_append hTip hs ht

theorem ClosesKind.of_forall {ofKind : Char → Bool} {t : Text} (h : ∀ c ∈ t, ofKind c = false) :
    ClosesKind ofKind t := by
  have hSteps : ∀ previous, openAfter? ofKind previous 0 t = some 0 := by
    induction t with
    | nil => exact fun _ => rfl
    | cons c t ih =>
      obtain ⟨hc, ht⟩ := List.forall_mem_cons.mp h
      intro previous
      have hStep : kindNesting ofKind previous c = 0 := by
        rw [kindNesting, hc, if_neg Bool.false_ne_true]
      rw [openAfter?_cons, hStep]
      exact ⟨Int.le_refl 0, ih ht (some c)⟩
  exact hSteps none

theorem depthFrom_of_openAfter? {previous : Option Char} {parens others lastParens lastOthers : Int}
    {t : Text} (hParens : openAfter? isParenthesis previous parens t = some lastParens)
    (hOthers : openAfter? isOther previous others t = some lastOthers) :
    depthFrom previous (parens + others) t = lastParens + lastOthers := by
  induction t generalizing previous parens others with
  | nil =>
    obtain rfl := Option.some.inj hParens
    obtain rfl := Option.some.inj hOthers
    rfl
  | cons c t ih =>
    have hStep : parens + others + nesting previous c =
        (parens + kindNesting isParenthesis previous c) +
          (others + kindNesting isOther previous c) := by
      rw [← kindNesting_add]
      omega
    rw [depthFrom, hStep]
    exact ih (openAfter?_cons.mp hParens).2 (openAfter?_cons.mp hOthers).2

/-- A text that closes both kinds of brackets leads back to depth zero. -/
theorem depthFrom_of_closes {t : Text} (hParens : ClosesKind isParenthesis t)
    (hOthers : ClosesKind isOther t) :
    depthFrom none 0 t = 0 :=
  depthFrom_of_openAfter? hParens hOthers

theorem openAfter?_collapseFrom {previous previous' : Option Char} {count last : Int} {t : Text}
    (hCount : 0 ≤ count) (h : openAfter? isParenthesis previous count t = some last)
    (pending : Bool) :
    openAfter? isParenthesis previous' count (collapseFrom pending t) = some last := by
  induction t generalizing previous previous' count pending with
  | nil => exact h
  | cons c t ih =>
    obtain ⟨hNonneg, hRest⟩ := openAfter?_cons.mp h
    rw [collapseFrom]
    cases hBlank : isBlank c with
    | false =>
      rw [kindNesting_congr rfl _ previous'] at hNonneg hRest
      rw [if_neg Bool.false_ne_true]
      exact openAfter?_cons.mpr ⟨hNonneg, ih hNonneg hRest false⟩
    | true =>
      have hNot : isParenthesis c = false := by
        rcases isParenthesis_cases c with rfl | rfl | hNeither
        · cases hBlank
        · cases hBlank
        · exact hNeither
      rw [(kindNesting_of_not hNot previous).1, Int.add_zero] at hRest
      rw [if_pos rfl]
      cases pending with
      | true =>
        rw [if_pos rfl]
        exact ih hCount hRest true
      | false =>
        have hSpace : count + kindNesting isParenthesis previous' ' ' = count := Int.add_zero count
        rw [if_neg Bool.false_ne_true, openAfter?_cons, hSpace]
        exact ⟨hCount, ih hCount hRest true⟩

theorem ClosesKind.collapse {t : Text} (h : ClosesKind isParenthesis t) :
    ClosesKind isParenthesis (collapse t) :=
  openAfter?_collapseFrom (Int.le_refl 0) h false

/-! ## Three kinds -/

/-- Whether the character is a square bracket. -/
def isSquare (c : Char) : Bool := c = '[' || c = ']'

/-- Whether the character is a brace. -/
def isBrace (c : Char) : Bool := c = '{' || c = '}'

/-- Whether the character is a parenthesis, a square bracket or a brace. -/
def isBracket (c : Char) : Bool := c ∈ ['(', '[', '{', ')', ']', '}']

theorem isBracket_cases {c : Char} (h : isBracket c = false) :
    isParenthesis c = false ∧ isSquare c = false ∧ isBrace c = false := by
  simp only [isBracket, List.mem_cons, List.not_mem_nil, or_false,
    decide_eq_false_iff_not, not_or] at h
  simp [isParenthesis, isSquare, isBrace, h]

theorem isBracket_of_isNameChar {c : Char} (h : isNameChar c = true) : isBracket c = false :=
  decide_eq_false (not_mem_of_class h (by decide))

theorem isBracket_of_isBlank {c : Char} (h : isBlank c = true) : isBracket c = false :=
  decide_eq_false (not_mem_of_class h (by decide))

theorem kindNesting_sum (previous : Option Char) (c : Char) :
    kindNesting isParenthesis previous c + kindNesting isSquare previous c +
      kindNesting isBrace previous c =
      if c ∈ ['(', '[', '{'] then 1 else if c ∈ [')', ']', '}'] then -1 else 0 := by
  cases hBracket : isBracket c with
  | true =>
    have hMem := of_decide_eq_true hBracket
    simp only [List.mem_cons, List.not_mem_nil, or_false] at hMem
    rcases hMem with rfl | rfl | rfl | rfl | rfl | rfl <;> rfl
  | false =>
    have hMem := of_decide_eq_false hBracket
    have hOpening : c ∉ ['(', '[', '{'] := fun h => hMem (List.mem_append_left [')', ']', '}'] h)
    have hClosing : c ∉ [')', ']', '}'] := fun h => hMem (List.mem_append_right ['(', '[', '{'] h)
    rw [if_neg hOpening, if_neg hClosing]
    simp [kindNesting, isBracket_cases hBracket]

/-- Brackets of each kind that are closed are closed together. -/
theorem balancedFrom_of_openAfter? {previous : Option Char} {parens squares braces : Int}
    {depth : Nat} {t : Text} (hParens : openAfter? isParenthesis previous parens t = some 0)
    (hSquares : openAfter? isSquare previous squares t = some 0)
    (hBraces : openAfter? isBrace previous braces t = some 0)
    (hDepth : (depth : Int) = parens + squares + braces) : balancedFrom depth t = true := by
  induction t generalizing previous parens squares braces depth with
  | nil =>
    obtain rfl := Option.some.inj hParens
    obtain rfl := Option.some.inj hSquares
    obtain rfl := Option.some.inj hBraces
    exact decide_eq_true (by omega)
  | cons c t ih =>
    obtain ⟨hNonnegParens, hParens⟩ := openAfter?_cons.mp hParens
    obtain ⟨hNonnegSquares, hSquares⟩ := openAfter?_cons.mp hSquares
    obtain ⟨hNonnegBraces, hBraces⟩ := openAfter?_cons.mp hBraces
    have hStep := kindNesting_sum previous c
    unfold balancedFrom
    split_ifs at hStep ⊢ with hOpening hClosing
    · exact ih hParens hSquares hBraces (by omega)
    · cases depth with
      | zero => omega
      | succ depth => exact ih hParens hSquares hBraces (by omega)
    · exact ih hParens hSquares hBraces (by omega)

theorem balanced_of_closesKinds {t : Text} (hParens : ClosesKind isParenthesis t)
    (hSquares : ClosesKind isSquare t) (hBraces : ClosesKind isBrace t) : balanced t = true :=
  balancedFrom_of_openAfter? hParens hSquares hBraces rfl

/-! ## Groups -/

section

variable (depth : Int) (offset : Nat) (t : Text)

theorem parenCloseFrom_opening :
    parenCloseFrom depth offset ('(' :: t) = parenCloseFrom (depth + 1) (offset + 1) t := rfl

theorem parenCloseFrom_closing : parenCloseFrom depth offset (')' :: t) =
    if depth = 1 then some offset else parenCloseFrom (depth - 1) (offset + 1) t := rfl

theorem parenCloseFrom_other {c : Char} (h : isParenthesis c = false) :
    parenCloseFrom depth offset (c :: t) = parenCloseFrom depth (offset + 1) t := by
  obtain ⟨hOpening, hClosing⟩ := Bool.or_eq_false_iff.mp h
  rw [parenCloseFrom, if_neg (of_decide_eq_false hOpening), if_neg (of_decide_eq_false hClosing)]

end

/-- Counting goes past a text as far as it leaves parentheses open. -/
theorem parenCloseFrom_of_openAfter? {previous : Option Char} {count last : Int} {t : Text}
    (hCount : 0 ≤ count) (h : openAfter? isParenthesis previous count t = some last) {depth : Int}
    (hDepth : 1 ≤ depth) (offset : Nat) (rest : Text) :
    parenCloseFrom (depth + count) offset (t ++ rest) =
      parenCloseFrom (depth + last) (offset + t.length) rest := by
  induction t generalizing previous count offset with
  | nil =>
    obtain rfl := Option.some.inj h
    rfl
  | cons c t ih =>
    have hLength : offset + (c :: t).length = offset + 1 + t.length := by
      rw [List.length_cons]
      omega
    obtain ⟨hNonneg, hRest⟩ := openAfter?_cons.mp h
    rw [List.cons_append, hLength, ← ih hNonneg hRest]
    rcases isParenthesis_cases c with rfl | rfl | hNeither
    · have hStep : depth + (count + kindNesting isParenthesis previous '(') = depth + count + 1 :=
        (Int.add_assoc depth count 1).symm
      rw [parenCloseFrom_opening, hStep]
    · have hNesting : kindNesting isParenthesis previous ')' = -1 := rfl
      have hStep : depth + (count + kindNesting isParenthesis previous ')') =
          depth + count - 1 := by omega
      rw [parenCloseFrom_closing, if_neg (by omega), hStep]
    · rw [parenCloseFrom_other _ _ _ hNeither,
        (kindNesting_of_not hNeither previous).1, Int.add_zero]

/-- A text that closes its parentheses is passed when they are counted. -/
theorem ClosesKind.closesParens {t : Text} (h : ClosesKind isParenthesis t) : ClosesParens t := by
  intro depth offset rest hDepth
  have hPass := parenCloseFrom_of_openAfter? (Int.le_refl 0) h hDepth offset rest
  rwa [Int.add_zero] at hPass

theorem parenCloseFrom_append {depth : Int} {offset close : Nat} {t : Text}
    (h : parenCloseFrom depth offset t = some close) (rest : Text) :
    parenCloseFrom depth offset (t ++ rest) = some close := by
  induction t generalizing depth offset with
  | nil => cases h
  | cons c t ih =>
    rw [List.cons_append]
    rcases isParenthesis_cases c with rfl | rfl | hNeither
    · exact ih h
    · rw [parenCloseFrom_closing] at h ⊢
      by_cases hLast : depth = 1
      · rwa [if_pos hLast] at h ⊢
      · rw [if_neg hLast] at h ⊢
        exact ih h
    · rw [parenCloseFrom_other _ _ _ hNeither] at h ⊢
      exact ih h

theorem exists_parenCloseFrom {previous : Option Char} {count : Int} {t : Text} (hCount : 0 < count)
    (h : openAfter? isParenthesis previous count t = some 0) (offset : Nat) :
    ∃ close, parenCloseFrom count offset t = some close ∧ close < offset + t.length := by
  induction t generalizing previous count offset with
  | nil =>
    obtain rfl := Option.some.inj h
    exact absurd hCount (Int.lt_irrefl 0)
  | cons c t ih =>
    have hAgain : ∀ {next : Int}, 0 < next → openAfter? isParenthesis (some c) next t = some 0 →
        ∃ close, parenCloseFrom next (offset + 1) t = some close ∧
        close < offset + (t.length + 1) := by
      intro next hNext hRest
      obtain ⟨close, hClose, hBound⟩ := ih hNext hRest (offset + 1)
      exact ⟨close, hClose, by omega⟩
    obtain ⟨-, hRest⟩ := openAfter?_cons.mp h
    rw [List.length_cons]
    rcases isParenthesis_cases c with rfl | rfl | hNeither
    · exact hAgain (by omega) hRest
    · rw [parenCloseFrom_closing]
      by_cases hLast : count = 1
      · rw [if_pos hLast]
        exact ⟨offset, rfl, by omega⟩
      · rw [if_neg hLast]
        exact hAgain (by omega) hRest
    · rw [(kindNesting_of_not hNeither previous).1, Int.add_zero] at hRest
      rw [parenCloseFrom_other _ _ _ hNeither]
      exact hAgain hCount hRest

/-- A text that closes its parentheses has none around it together with what follows. -/
theorem isParenthesized_append {t : Text} (hNonempty : t ≠ []) (h : ClosesKind isParenthesis t)
    {rest : Text} (hRest : rest ≠ []) :
    isParenthesized (t ++ rest) = false := by
  refine Bool.eq_false_iff.mpr fun hParens => ?_
  unfold isParenthesized at hParens
  obtain ⟨hEnds, hClose⟩ := Bool.and_eq_true_iff.mp hParens
  cases t with
  | nil => exact hNonempty rfl
  | cons c t =>
    obtain rfl : c = '(' := Option.some.inj (of_decide_eq_true (Bool.and_eq_true_iff.mp hEnds).1)
    obtain ⟨close, hInside, hBound⟩ := exists_parenCloseFrom Int.one_pos (openAfter?_cons.mp h).2 1
    have hFirst : parenClose? ('(' :: t ++ rest) = some close := parenCloseFrom_append hInside rest
    have hLast := Option.some.inj (hFirst.symm.trans (of_decide_eq_true hClose))
    have hLength := List.length_pos_iff.mpr hRest
    rw [List.length_append, List.length_cons] at hLast
    omega

theorem uncut_of_parenCloseFrom {isSeparator : Char → Bool} (hSeparator : isSeparator ')' = false)
    {previous : Option Char} {depth others last : Int} {offset close : Nat} {t : Text}
    (hDepth : 0 < depth) (hClose : parenCloseFrom depth offset t = some close)
    (hEnd : close + 1 = offset + t.length) (hCount : 0 ≤ others)
    (hOthers : openAfter? isOther previous others t = some last) :
    Uncut isSeparator previous (depth + others) t := by
  induction t generalizing previous depth others offset with
  | nil => trivial
  | cons c t ih =>
    rw [List.length_cons] at hEnd
    obtain ⟨hNonneg, hRest⟩ := openAfter?_cons.mp hOthers
    rcases isParenthesis_cases c with rfl | rfl | hNeither
    · have hStep : depth + others + nesting previous '(' = depth + 1 + others :=
        Int.add_right_comm _ _ _
      have hOther : others + kindNesting isOther previous '(' = others := Int.add_zero _
      rw [hOther] at hRest
      rw [Uncut, hStep]
      exact ⟨fun hCut => by omega, ih (by omega) hClose (by omega) hCount hRest⟩
    · refine ⟨fun hCut => Bool.false_ne_true (hSeparator.symm.trans hCut.1), ?_⟩
      rw [parenCloseFrom_closing] at hClose
      by_cases hLast : depth = 1
      · -- The group is closed, and nothing is left of the text.
        rw [if_pos hLast] at hClose
        obtain rfl := Option.some.inj hClose
        obtain rfl : t = [] := List.length_eq_zero_iff.mp (by omega)
        trivial
      · have hStep : depth + others + nesting previous ')' = depth - 1 + others :=
          Int.add_right_comm _ _ _
        have hOther : others + kindNesting isOther previous ')' = others := Int.add_zero _
        rw [if_neg hLast] at hClose
        rw [hOther] at hRest
        rw [hStep]
        exact ih (by omega) hClose (by omega) hCount hRest
    · rw [parenCloseFrom_other _ _ _ hNeither] at hClose
      rw [(kindNesting_of_not hNeither previous).2] at hNonneg hRest
      rw [Uncut, Int.add_assoc]
      exact ⟨fun hCut => by omega, ih hDepth hClose (by omega) hNonneg hRest⟩

theorem uncut_of_isParenthesized {isSeparator : Char → Bool} (hOpening : isSeparator '(' = false)
    (hClosing : isSeparator ')' = false) {t : Text} (h : isParenthesized t = true)
    (hOthers : ClosesKind isOther t) : Uncut isSeparator none 0 t := by
  obtain ⟨inside, rfl, hClose⟩ := exists_of_isParenthesized h
  refine ⟨fun hCut => Bool.false_ne_true (hOpening.symm.trans hCut.1), ?_⟩
  have hEnd : inside.length + 1 + 1 = 1 + (inside ++ [')']).length := by
    rw [List.length_append, List.length_singleton, Nat.add_comm]
  have hInside : Uncut isSeparator (some '(') (1 + 0) (inside ++ [')']) :=
    uncut_of_parenCloseFrom hClosing Int.one_pos hClose hEnd (Int.le_refl 0)
      (openAfter?_cons.mp hOthers).2
  exact hInside

end Text

end TemplateCheck
