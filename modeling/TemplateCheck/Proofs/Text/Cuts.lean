import TemplateCheck.Proofs.Text.Parts

/-!
# Where a text is cut

Splitting outside brackets loses nothing: with the separator between them, the parts are the text
again (`join_splitTopLevelFrom`). A separator of one character cuts exactly where it stands at
running depth zero (`cutsFrom_splitTopLevelFrom`).

The running depth at an offset (`depthAt`) is counted from the brackets before it, so it may fall
below zero and come back. It is the depth that the splitting carries along (`depthFrom_take`).
-/

namespace TemplateCheck

namespace Text

/-! ## The running depth -/

/-- Whether the character opens a bracket. -/
def isOpening (c : Char) : Bool := c ∈ ['{', '(', '[', '<']

/-- Whether the character closes a bracket, if it is no tip of an arrow. -/
def isClosing (c : Char) : Bool := c ∈ ['}', ')', ']', '>']

/-- Whether the tip of an arrow `=>` stands at an offset. -/
def isTipAt (t : Text) (offset : Nat) : Bool :=
  0 < offset && t[offset - 1]? = some '=' && t[offset]? = some '>'

/-- The running depth at an offset: the brackets opened before it, less those closed before it. -/
def depthAt (t : Text) (offset : Nat) : Int :=
  ((List.range offset).countP fun i => (t[i]?).any isOpening : Nat) -
    ((List.range offset).countP fun i => (t[i]?).any isClosing && !isTipAt t i : Nat)

theorem nesting_eq (previous : Option Char) (c : Char) :
    nesting previous c = (if isOpening c then 1 else 0) -
      (if isClosing c && !(previous = some '=' && c = '>') then 1 else 0) := by
  unfold nesting isOpening isClosing
  by_cases hOpening : c ∈ ['{', '(', '[', '<']
  · have hClosing : c ∉ ['}', ')', ']', '>'] := by
      simp only [List.mem_cons, List.not_mem_nil, or_false] at hOpening
      rcases hOpening with rfl | rfl | rfl | rfl <;> decide
    simp only [hOpening, hClosing, if_true, decide_false, decide_true, Bool.false_and]
    rfl
  · by_cases hTip : c = '>' ∧ previous = some '='
    · obtain ⟨rfl, rfl⟩ := hTip
      decide
    · have hNot : (decide (previous = some '=') && decide (c = '>')) = false := by
        rw [Bool.and_comm, ← Bool.decide_and, decide_eq_false hTip]
      rw [if_neg hOpening, if_neg hTip, decide_eq_false hOpening, hNot]
      by_cases hClosing : c ∈ ['}', ')', ']', '>'] <;>
        simp only [hClosing, if_true, if_false] <;> rfl

theorem neg_one_le_nesting (previous : Option Char) (c : Char) : -1 ≤ nesting previous c := by
  unfold nesting
  split_ifs <;> decide

theorem depthAt_succ {t : Text} {offset : Nat} {c : Char} (h : t[offset]? = some c) :
    depthAt t (offset + 1) = depthAt t offset + nesting (t.take offset).getLast? c := by
  have hPrevious : isTipAt t offset =
      (decide ((t.take offset).getLast? = some '=') && decide (c = '>')) := by
    cases offset with
    | zero => rfl
    | succ before =>
      have hLt := (List.getElem?_eq_some_iff.mp h).1
      have hLast : (t.take (before + 1)).getLast? = t[before]? := by
        rw [List.getLast?_eq_getElem?, List.length_take, Nat.min_eq_left (by omega),
          Nat.add_sub_cancel, List.getElem?_take_of_lt (Nat.lt_succ_self before)]
      rw [isTipAt, h, hLast, Nat.add_sub_cancel]
      simp
  unfold depthAt
  rw [List.range_succ, List.countP_append, List.countP_append, List.countP_singleton,
    List.countP_singleton, h, Option.any_some, Option.any_some, hPrevious, nesting_eq]
  push_cast
  split_ifs <;> omega

theorem depthFrom_take {t : Text} {offset : Nat} (h : offset ≤ t.length) :
    depthFrom none 0 (t.take offset) = depthAt t offset := by
  induction offset with
  | zero => rfl
  | succ offset ih =>
    have hGet : t[offset]? = some t[offset] := List.getElem?_eq_getElem h
    rw [depthAt_succ hGet, ← ih (Nat.le_of_succ_le h), ← List.take_append_getElem h,
      depthFrom_append, Option.or_none]
    rfl

theorem pos_depthFrom_take {previous : Option Char} {depth : Int} {t : Text}
    (h : Above 0 previous depth t) (hDepth : 0 < depth) (n : Nat) :
    0 < depthFrom previous depth (t.take n) := by
  rw [← List.take_append_drop n t] at h
  exact (above_append.mp h).1.lt_depthFrom hDepth

/-! ## Nothing is lost -/

theorem join_cons_of_ne_nil (separator part : Text) {parts : List Text} (h : parts ≠ []) :
    join separator (part :: parts) = part ++ separator ++ join separator parts := by
  obtain ⟨next, parts, rfl⟩ := List.exists_cons_of_ne_nil h
  rfl

theorem splitTopLevelFrom_ne_nil (separator : Text) (previous : Option Char) (depth : Int)
    (current : Text) (skip : Nat) (t : Text) :
    splitTopLevelFrom separator previous depth current skip t ≠ [] := by
  fun_induction splitTopLevelFrom separator previous depth current skip t with
  | case1 => exact List.cons_ne_nil _ _
  | case2 _ _ _ _ _ _ ih => exact ih
  | case3 => exact List.cons_ne_nil _ _
  | case4 _ _ _ _ _ _ _ ih => exact ih

/-- With the separator between them, the parts are what was read and what is left of the text. -/
theorem join_splitTopLevelFrom {separator : Text} (h : separator ≠ []) (previous : Option Char)
    (depth : Int) (current : Text) (skip : Nat) (t : Text) :
    join separator (splitTopLevelFrom separator previous depth current skip t) =
      current.reverse ++ t.drop skip := by
  fun_induction splitTopLevelFrom separator previous depth current skip t with
  | case1 previous depth current skip => rw [List.drop_nil, List.append_nil, join]
  | case2 previous depth current skip c t ih => rw [ih, List.drop_succ_cons]
  | case3 previous depth current c t deeper hCut ih =>
    obtain ⟨rest, hRest⟩ := exists_of_startsWith hCut.1
    obtain ⟨d, separator, rfl⟩ := List.exists_cons_of_ne_nil h
    obtain ⟨rfl, rfl⟩ := List.cons.inj hRest
    have hLater : (separator.append rest).drop ((c :: separator).length - 1) = rest :=
      List.drop_left
    rw [join_cons_of_ne_nil _ _ (splitTopLevelFrom_ne_nil _ _ _ _ _ _), ih, hLater,
      List.append_assoc]
    rfl
  | case4 previous depth current c t deeper hCut ih => simp [ih]

/-! ## Cuts -/

/-- Where the separators stand when parts are joined, the first part at `offset`. -/
def cutsFrom (width offset : Nat) : List Text → List Nat
  | [] => []
  | [_] => []
  | part :: next :: parts =>
    (offset + part.length) :: cutsFrom width (offset + part.length + width) (next :: parts)

theorem cutsFrom_cons {parts : List Text} (h : parts ≠ []) (width offset : Nat) (part : Text) :
    cutsFrom width offset (part :: parts) =
      (offset + part.length) :: cutsFrom width (offset + part.length + width) parts := by
  obtain ⟨next, parts, rfl⟩ := List.exists_cons_of_ne_nil h
  rfl

/-- The rest of a text is cut where the separator stands at depth zero. -/
theorem cutsFrom_splitTopLevelFrom {separator : Char} (hNesting : nesting none separator = 0)
    (t before after : Text) (ht : t = before ++ after) (start : Nat) (current : Text)
    (hStart : start + current.length = before.length) :
    cutsFrom 1 start (splitTopLevelFrom [separator] before.getLast?
      (depthFrom none 0 before) current 0 after) =
      (List.range' before.length after.length).filter fun i =>
        t[i]? = some separator ∧ depthFrom none 0 (t.take i) = 0 := by
  induction after generalizing before start current with
  | nil => rfl
  | cons c after ih =>
    have hHere : t[before.length]? = some c ∧ t.take before.length = before := by
      subst ht
      exact ⟨List.getElem?_append_right (Nat.le_refl _) |>.trans (by simp), List.take_left⟩
    have hStep : depthFrom none 0 (before ++ [c]) =
        depthFrom none 0 before + nesting before.getLast? c := by
      rw [depthFrom_append, Option.or_none]
      rfl
    have hLater : ∀ (start : Nat) (current : Text), start + current.length = before.length + 1 →
        cutsFrom 1 start (splitTopLevelFrom [separator] (some c)
          (depthFrom none 0 before + nesting before.getLast? c) current 0 after) =
            (List.range' (before.length + 1) after.length).filter fun i =>
              t[i]? = some separator ∧ depthFrom none 0 (t.take i) = 0 := by
      intro start current hStart
      have hRest := ih (before ++ [c]) (by simpa using ht) start current (by simpa using hStart)
      rwa [List.getLast?_concat, hStep, List.length_append, List.length_singleton] at hRest
    rw [splitTopLevelFrom_cons, List.length_cons, List.range'_succ, List.filter_cons,
      hHere.1, hHere.2]
    by_cases hCut : separator = c ∧ depthFrom none 0 before + nesting before.getLast? c = 0
    · obtain ⟨rfl, hDepth⟩ := hCut
      have hZero : depthFrom none 0 before = 0 := by
        rwa [nesting_of_none hNesting, Int.add_zero] at hDepth
      have hRest := hLater (before.length + 1) [] rfl
      rw [hDepth] at hRest
      rw [if_pos ⟨rfl, hDepth⟩, if_pos (by simpa using hZero),
        cutsFrom_cons (splitTopLevelFrom_ne_nil _ _ _ _ _ _), List.length_reverse, hStart, hRest]
    · rw [if_neg hCut, if_neg, hLater]
      · rw [List.length_cons]
        omega
      · rintro hHit
        obtain ⟨hSame, hZero⟩ := of_decide_eq_true hHit
        obtain rfl := Option.some.inj hSame
        exact hCut ⟨rfl, by rw [nesting_of_none hNesting, hZero]; rfl⟩

/-! ## Splitting a text -/

/-- The parts of a text, joined by the separator, are the text; and a separator of one character
that is no bracket cuts it exactly where it stands at running depth zero. -/
theorem splitTopLevel_exact (separator t : Text) (h : separator ≠ []) :
    join separator (splitTopLevel separator t) = t ∧
      ∀ c, separator = [c] → isOpening c = false → isClosing c = false →
        cutsFrom 1 0 (splitTopLevel separator t) =
          (List.range t.length).filter fun i => t[i]? = some c ∧ depthAt t i = 0 := by
  refine ⟨join_splitTopLevelFrom h none 0 [] 0 t, ?_⟩
  rintro c rfl hOpening hClosing
  have hNesting : nesting none c = 0 := by
    rw [nesting_eq, hOpening, hClosing]
    rfl
  have hCuts := cutsFrom_splitTopLevelFrom hNesting t [] t rfl 0 [] rfl
  rw [List.range_eq_range']
  refine hCuts.trans (List.filter_congr fun i hi => ?_)
  have hBound := (List.mem_range'_1.mp hi).2
  rw [depthFrom_take (by simpa using Nat.le_of_lt hBound)]

/-- The tip of an arrow closes nothing. Behind a bracket that closes too much the commas count again
once another one is opened. -/
theorem splitTopLevel_exact_unbalanced :
    join [','] (splitTopLevel [','] "f<a, b>, c => d, e>, g, <h, i".toList) =
      "f<a, b>, c => d, e>, g, <h, i".toList ∧
      cutsFrom 1 0 (splitTopLevel [','] "f<a, b>, c => d, e>, g, <h, i".toList) = [7, 15, 26] := by
  obtain ⟨hJoin, hCuts⟩ :=
    splitTopLevel_exact [','] "f<a, b>, c => d, e>, g, <h, i".toList (by decide)
  exact ⟨hJoin, (hCuts ',' rfl rfl rfl).trans (by decide +kernel)⟩

end Text

end TemplateCheck
