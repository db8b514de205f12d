import TemplateCheck.Proofs.Text.Blank
import TemplateCheck.Text.Bracket

/-!
# Groups in parentheses

Parentheses are counted apart from other brackets. A text that closes its own ones is passed when
they are counted (`ClosesParens`), so the parentheses around it are taken off (`stripParens_group`).
What is left when they are has none around it, so none are taken off again
(`stripParens_stripParens`).
-/

namespace TemplateCheck

namespace Text

/-- Counting parentheses goes past the text, whatever follows it. -/
def ClosesParens (t : Text) : Prop :=
  ∀ (depth : Int) (offset : Nat) (rest : Text), 1 ≤ depth →
    parenCloseFrom depth offset (t ++ rest) = parenCloseFrom depth (offset + t.length) rest

namespace ClosesParens

variable {s t : Text}

theorem of_forall (h : ∀ c ∈ t, c ≠ '(' ∧ c ≠ ')') : ClosesParens t := by
  intro depth offset rest hDepth
  induction t generalizing offset with
  | nil => rfl
  | cons c t ih =>
    obtain ⟨hc, ht⟩ := List.forall_mem_cons.mp h
    rw [List.cons_append, parenCloseFrom, if_neg hc.1, if_neg hc.2, ih ht, List.length_cons,
      Nat.add_right_comm, Nat.add_assoc offset]

theorem append (hs : ClosesParens s) (ht : ClosesParens t) : ClosesParens (s ++ t) := by
  intro depth offset rest hDepth
  rw [List.append_assoc, hs depth offset _ hDepth, ht depth _ rest hDepth, List.length_append,
    Nat.add_assoc]

theorem group (h : ClosesParens t) : ClosesParens ('(' :: t ++ [')']) := by
  intro depth offset rest hDepth
  rw [List.append_assoc, List.cons_append, parenCloseFrom, if_pos rfl, h _ _ _ (by omega),
    List.singleton_append, parenCloseFrom, if_neg (by decide), if_pos rfl, if_neg (by omega),
    Int.add_sub_cancel, List.length_append, List.length_cons, List.length_singleton]
  congr 1
  omega

end ClosesParens

theorem isParenthesized_eq_false {t : Text} (h : t.getLast? ≠ some ')') :
    isParenthesized t = false := by
  unfold isParenthesized
  rw [decide_eq_false h, Bool.and_false, Bool.false_and]

theorem parenClose?_group {t : Text} (h : ClosesParens t) (rest : Text) :
    parenClose? (('(' :: t ++ [')']) ++ rest) = some (t.length + 1) := by
  have hText : ('(' :: t ++ [')']) ++ rest = '(' :: (t ++ ')' :: rest) := by simp
  rw [hText, parenClose?, parenCloseFrom, if_pos rfl, h _ _ _ (by omega), parenCloseFrom,
    if_neg (by decide), if_pos rfl, if_pos (by omega), Nat.zero_add, Nat.add_comm]

theorem isParenthesized_group {t : Text} (h : ClosesParens t) :
    isParenthesized ('(' :: t ++ [')']) = true := by
  have hClose := parenClose?_group h []
  rw [List.append_nil] at hClose
  unfold isParenthesized
  rw [hClose, List.getLast?_append]
  simp

theorem exists_of_isParenthesized {t : Text} (h : isParenthesized t = true) :
    ∃ inside, t = '(' :: (inside ++ [')']) ∧
      parenCloseFrom 1 1 (inside ++ [')']) = some (inside.length + 1) := by
  unfold isParenthesized at h
  obtain ⟨hEnds, hClose⟩ := Bool.and_eq_true_iff.mp h
  obtain ⟨hHead, hLast⟩ := Bool.and_eq_true_iff.mp hEnds
  obtain ⟨rest, rfl⟩ := List.head?_eq_some_iff.mp (of_decide_eq_true hHead)
  obtain ⟨before, hBefore⟩ := List.getLast?_eq_some_iff.mp (of_decide_eq_true hLast)
  cases before with
  | nil => cases hBefore
  | cons c inside =>
    obtain ⟨rfl, rfl⟩ := List.cons.inj hBefore
    have hLength : ('(' :: (inside ++ [')'])).length - 1 = inside.length + 1 := List.length_append
    refine ⟨inside, rfl, (of_decide_eq_true hClose).trans ?_⟩
    exact congrArg some hLength

theorem stripParens_of_not {t : Text} (hTrimmed : t.Trimmed) (h : isParenthesized t = false) :
    stripParens t = t := by
  unfold stripParens
  rw [hTrimmed.trim_eq]
  cases t.length with
  | zero => rfl
  | succ bound => rw [stripParensUpTo, h, if_neg Bool.false_ne_true]

/-- A text that does not end in a parenthesis has none around it. -/
theorem stripParens_eq_self {t : Text} (hTrimmed : t.Trimmed) (hLast : t.getLast? ≠ some ')') :
    stripParens t = t :=
  stripParens_of_not hTrimmed (isParenthesized_eq_false hLast)

/-- All the parentheses around a text are taken off, as many as its length allows. -/
theorem isParenthesized_stripParensUpTo {bound : Nat} {t : Text} (hTrimmed : t.Trimmed)
    (hBound : t.length ≤ bound) :
    (stripParensUpTo bound t).Trimmed ∧ isParenthesized (stripParensUpTo bound t) = false := by
  induction bound generalizing t with
  | zero =>
    obtain rfl := List.length_eq_zero_iff.mp (Nat.le_zero.mp hBound)
    exact ⟨hTrimmed, rfl⟩
  | succ bound ih =>
    rw [stripParensUpTo]
    split_ifs with hParens
    · obtain ⟨inside, rfl, -⟩ := exists_of_isParenthesized hParens
      have hLength := (trim_sublist inside).length_le
      have hInner : inner ('(' :: (inside ++ [')'])) = inside := List.dropLast_concat
      rw [List.length_cons, List.length_append] at hBound
      rw [hInner]
      exact ih (trimmed_trim inside) (by omega)
    · exact ⟨hTrimmed, Bool.eq_false_iff.mpr hParens⟩

theorem stripParens_stripParens (t : Text) : stripParens (stripParens t) = stripParens t := by
  have hStripped := isParenthesized_stripParensUpTo (trimmed_trim t) (trim_sublist t).length_le
  exact stripParens_of_not hStripped.1 hStripped.2

theorem stripParens_group {t : Text} (hTrimmed : t.Trimmed) (hLast : t.getLast? ≠ some ')')
    (hCloses : ClosesParens t) : stripParens ('(' :: t ++ [')']) = t := by
  have hOuter : Trimmed ('(' :: t ++ [')']) := by
    constructor
    · rintro c ⟨⟩
      decide
    · rw [List.getLast?_append]
      rintro c ⟨⟩
      decide
  have hInner : inner ('(' :: t ++ [')']) = t := by
    unfold inner
    rw [List.cons_append, List.tail_cons, List.dropLast_concat]
  unfold stripParens
  rw [hOuter.trim_eq, List.length_append, List.length_cons, List.length_singleton, stripParensUpTo,
    isParenthesized_group hCloses, if_pos rfl, hInner, hTrimmed.trim_eq, stripParensUpTo,
    isParenthesized_eq_false hLast, if_neg Bool.false_ne_true]

end Text

end TemplateCheck
