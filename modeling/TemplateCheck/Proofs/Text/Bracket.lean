import TemplateCheck.Proofs.Text.Blank
import TemplateCheck.Proofs.Text.Classes
import TemplateCheck.Proofs.Text.Occurrence
import TemplateCheck.Text.Bracket

/-!
# Depth and cuts

The functions that ask where something stands outside brackets count a depth from left to right.
What they do with a part of a text depends on the depth that the part leads to and on whether a
separator in it is met at depth zero.

`depthFrom` is the depth after a part. A part is `Balanced` when it closes all that it opens and
nothing else, so that it leads back to where it began; it `Rises` when it may leave brackets open. A
part without a cut (`Uncut`) has no separator, or all of it is inside a bracket (`uncut_of_above`).
-/

namespace TemplateCheck

namespace Text

/-! ## Depth -/

theorem nesting_congr {previous previous' : Option Char} (h : previous ≠ some '=')
    (h' : previous' ≠ some '=') (c : Char) : nesting previous c = nesting previous' c := by
  unfold nesting
  rw [if_neg (c := c = '>' ∧ previous = some '=') fun hc => h hc.2,
    if_neg (c := c = '>' ∧ previous' = some '=') fun hc => h' hc.2]

theorem nesting_of_class {p : Char → Bool} {c : Char} (hc : p c = true)
    (hBrackets : ∀ d ∈ ['{', '(', '[', '<', '}', ')', ']', '>'], p d = false)
    (previous : Option Char) : nesting previous c = 0 := by
  have hNe : ∀ d ∈ ['{', '(', '[', '<', '}', ')', ']', '>'], c ≠ d := fun d hd =>
    ne_of_class hc (hBrackets d hd)
  have hOpening : c ∉ ['{', '(', '[', '<'] := fun hMem => hNe c (List.mem_append_left _ hMem) rfl
  have hClosing : c ∉ ['}', ')', ']', '>'] := fun hMem =>
    hNe c (List.mem_append_right ['{', '(', '[', '<'] hMem) rfl
  unfold nesting
  rw [if_neg hOpening, if_neg fun hTip => hNe '>' (by decide) hTip.1, if_neg hClosing]

theorem nesting_of_none {c : Char} (h : nesting none c = 0) (previous : Option Char) :
    nesting previous c = 0 := by
  by_cases hTip : c = '>'
  · subst hTip
    cases h
  · have hNot : ∀ previous : Option Char, ¬ (c = '>' ∧ previous = some '=') := fun _ hc => hTip hc.1
    unfold nesting at h ⊢
    rw [if_neg (hNot none)] at h
    rwa [if_neg (hNot previous)]

theorem nesting_of_isBlank {c : Char} (h : isBlank c = true) (previous : Option Char) :
    nesting previous c = 0 :=
  nesting_of_class h (by decide) previous

theorem some_ne_equals_of_isBlank {c : Char} (h : isBlank c = true) : some c ≠ some '=' := by
  rintro ⟨⟩
  cases h

/-- The depth after a text that follows `previous` at some depth. -/
def depthFrom (previous : Option Char) (depth : Int) : Text → Int
  | [] => depth
  | c :: t => depthFrom (some c) (depth + nesting previous c) t

theorem depthFrom_of_forall {t : Text} (h : ∀ c ∈ t, ∀ previous, nesting previous c = 0)
    (previous : Option Char) (depth : Int) : depthFrom previous depth t = depth := by
  induction t generalizing previous with
  | nil => rfl
  | cons c t ih =>
    obtain ⟨hc, ht⟩ := List.forall_mem_cons.mp h
    rw [depthFrom, hc, Int.add_zero, ih ht]

/-- The depth after each character is greater than `floor`. -/
def Above (floor : Int) (previous : Option Char) (depth : Int) : Text → Prop
  | [] => True
  | c :: t =>
    floor < depth + nesting previous c ∧ Above floor (some c) (depth + nesting previous c) t

instance decidableAbove (floor : Int) : (previous : Option Char) → (depth : Int) → (t : Text) →
    Decidable (Above floor previous depth t)
  | _, _, [] => inferInstanceAs (Decidable True)
  | previous, depth, c :: t =>
    have := decidableAbove floor (some c) (depth + nesting previous c) t
    inferInstanceAs (Decidable (_ ∧ _))

theorem depthFrom_append (previous : Option Char) (depth : Int) (s t : Text) :
    depthFrom previous depth (s ++ t) =
      depthFrom (s.getLast?.or previous) (depthFrom previous depth s) t := by
  induction s generalizing previous depth with
  | nil => rfl
  | cons c s ih =>
    rw [List.cons_append, depthFrom, ih, depthFrom, getLast?_cons_or]

theorem depthFrom_add (previous : Option Char) (depth more : Int) (t : Text) :
    depthFrom previous (depth + more) t = depthFrom previous depth t + more := by
  induction t generalizing previous depth with
  | nil => rfl
  | cons c t ih => rw [depthFrom, depthFrom, ← ih, Int.add_right_comm]

theorem depthFrom_congr {previous previous' : Option Char} (h : previous ≠ some '=')
    (h' : previous' ≠ some '=') (depth : Int) (t : Text) :
    depthFrom previous depth t = depthFrom previous' depth t := by
  cases t with
  | nil => rfl
  | cons c t => rw [depthFrom, depthFrom, nesting_congr h h']

theorem above_append {floor : Int} {previous : Option Char} {depth : Int} {s t : Text} :
    Above floor previous depth (s ++ t) ↔ Above floor previous depth s ∧
      Above floor (s.getLast?.or previous) (depthFrom previous depth s) t := by
  induction s generalizing previous depth with
  | nil => exact ⟨fun h => ⟨trivial, h⟩, fun h => h.2⟩
  | cons c s ih =>
    rw [List.cons_append, Above, ih, Above, depthFrom, getLast?_cons_or, and_assoc]

theorem above_add {floor : Int} {previous : Option Char} {depth : Int} {t : Text} (more : Int)
    (h : Above floor previous depth t) : Above (floor + more) previous (depth + more) t := by
  induction t generalizing previous depth with
  | nil => trivial
  | cons c t ih =>
    obtain ⟨hFirst, hLater⟩ := h
    refine ⟨by omega, ?_⟩
    rw [Int.add_right_comm]
    exact ih hLater

theorem Above.mono {floor floor' : Int} {previous : Option Char} {depth : Int} {t : Text}
    (h : Above floor previous depth t) (hFloor : floor' ≤ floor) :
    Above floor' previous depth t := by
  induction t generalizing previous depth with
  | nil => trivial
  | cons c t ih => exact ⟨by have := h.1; omega, ih h.2⟩

theorem above_congr {floor : Int} {previous previous' : Option Char} (h : previous ≠ some '=')
    (h' : previous' ≠ some '=') {depth : Int} {t : Text} :
    Above floor previous depth t ↔ Above floor previous' depth t := by
  cases t with
  | nil => exact Iff.rfl
  | cons c t => rw [Above, Above, nesting_congr h h']

/-! ## Rising texts -/

/-- The text closes no brackets but those that it opens, and the end of an arrow does not fall to
what comes after it. -/
structure Rises (t : Text) : Prop where
  above : Above (-1) none 0 t
  last_ne : t.getLast? ≠ some '='

theorem Above.lt_depthFrom {floor depth : Int} {previous : Option Char} {t : Text}
    (h : Above floor previous depth t) (hDepth : floor < depth) :
    floor < depthFrom previous depth t := by
  induction t generalizing previous depth with
  | nil => exact hDepth
  | cons c t ih => exact ih h.2 h.1

namespace Rises

variable {s t : Text} {previous : Option Char}

theorem above_of (h : t.Rises) (hPrevious : previous ≠ some '=') {floor depth : Int}
    (hFloor : floor < depth) : Above floor previous depth t := by
  rw [above_congr hPrevious (Option.some_ne_none _).symm]
  have hShift := above_add depth h.above
  rw [Int.zero_add] at hShift
  exact hShift.mono (by omega)

theorem append (hs : s.Rises) (ht : t.Rises) : Rises (s ++ t) := by
  have hPrevious : s.getLast?.or none ≠ some '=' := by
    rw [Option.or_none]
    exact hs.last_ne
  refine ⟨above_append.mpr ⟨hs.above, ht.above_of hPrevious (hs.above.lt_depthFrom (by omega))⟩, ?_⟩
  rw [List.getLast?_append]
  intro hLast
  rcases Option.or_eq_some_iff.mp hLast with hLast | ⟨-, hLast⟩
  · exact ht.last_ne hLast
  · exact hs.last_ne hLast

end Rises

/-! ## Balance -/

/-- The text closes all brackets that it opens and no others. The end of an arrow does not fall to
what comes after it. -/
structure Balanced (t : Text) : Prop where
  depth_eq : depthFrom none 0 t = 0
  above : Above (-1) none 0 t
  last_ne : t.getLast? ≠ some '='

namespace Balanced

variable {s t : Text} {previous : Option Char}

instance (t : Text) : Decidable t.Balanced :=
  decidable_of_iff (depthFrom none 0 t = 0 ∧ Above (-1) none 0 t ∧ t.getLast? ≠ some '=')
    ⟨fun h => ⟨h.1, h.2.1, h.2.2⟩, fun h => ⟨h.depth_eq, h.above, h.last_ne⟩⟩

theorem depthFrom_eq (h : t.Balanced) (hPrevious : previous ≠ some '=') (depth : Int) :
    depthFrom previous depth t = depth := by
  have hShift := depthFrom_add none 0 depth t
  rw [h.depth_eq, Int.zero_add] at hShift
  rw [depthFrom_congr hPrevious (Option.some_ne_none _).symm, hShift]

theorem rises (h : t.Balanced) : t.Rises := ⟨h.above, h.last_ne⟩

theorem above_of (h : t.Balanced) (hPrevious : previous ≠ some '=') {floor depth : Int}
    (hFloor : floor < depth) : Above floor previous depth t :=
  h.rises.above_of hPrevious hFloor

theorem previous_ne (h : t.Balanced) (hPrevious : previous ≠ some '=') :
    t.getLast?.or previous ≠ some '=' := by
  intro hLast
  rcases Option.or_eq_some_iff.mp hLast with hLast | ⟨-, hPrevious'⟩
  · exact h.last_ne hLast
  · exact hPrevious hPrevious'

theorem nil : Balanced [] := ⟨rfl, trivial, Option.some_ne_none _ |>.symm⟩

theorem of_forall (h : ∀ c ∈ t, nesting none c = 0) (hEquals : '=' ∉ t) : Balanced t := by
  have hSteps : ∀ (previous : Option Char) (depth : Int), previous ≠ some '=' →
      depthFrom previous depth t = depth ∧ (-1 < depth → Above (-1) previous depth t) := by
    induction t with
    | nil => exact fun _ depth _ => ⟨rfl, fun _ => trivial⟩
    | cons c t ih =>
      intro previous depth hPrevious
      obtain ⟨hc, ht⟩ := List.forall_mem_cons.mp h
      obtain ⟨hFirst, hLater⟩ := not_or.mp (List.mem_cons.not.mp hEquals)
      have hStep : depth + nesting previous c = depth := by
        rw [nesting_congr hPrevious (Option.some_ne_none _).symm, hc, Int.add_zero]
      have hRest := ih ht hLater (some c) depth fun hEq => hFirst (Option.some.inj hEq).symm
      rw [depthFrom, Above, hStep]
      exact ⟨hRest.1, fun hDepth => ⟨hDepth, hRest.2 hDepth⟩⟩
  obtain ⟨hDepth, hAbove⟩ := hSteps none 0 (Option.some_ne_none _).symm
  exact ⟨hDepth, hAbove (by omega), fun hLast => hEquals (List.mem_of_getLast? hLast)⟩

/-- A balanced text before another one leads nowhere. -/
theorem depthFrom_append (hs : s.Balanced) (t : Text) :
    depthFrom none 0 (s ++ t) = depthFrom none 0 t := by
  have hPrevious := hs.previous_ne (Option.some_ne_none '=').symm
  rw [Text.depthFrom_append, hs.depth_eq, depthFrom_congr hPrevious (Option.some_ne_none _).symm]

theorem above_append (hs : s.Balanced) (ht : Above (-1) none 0 t) : Above (-1) none 0 (s ++ t) := by
  have hPrevious := hs.previous_ne (Option.some_ne_none '=').symm
  refine Text.above_append.mpr ⟨hs.above, ?_⟩
  rwa [hs.depth_eq, above_congr hPrevious (Option.some_ne_none _).symm]

/-- With a character behind it that is no bracket, a text that may end in an equals sign
is balanced. -/
theorem concat (hDepth : depthFrom none 0 t = 0) (hAbove : Above (-1) none 0 t) {c : Char}
    (hNesting : ∀ previous, nesting previous c = 0) (hEquals : c ≠ '=') : Balanced (t ++ [c]) := by
  refine ⟨?_, Text.above_append.mpr ⟨hAbove, ?_, trivial⟩, ?_⟩
  · rw [Text.depthFrom_append, depthFrom, hNesting, hDepth]
    rfl
  · rw [hNesting, hDepth]
    decide
  · rw [List.getLast?_concat]
    exact fun hLast => hEquals (Option.some.inj hLast)

theorem append (hs : s.Balanced) (ht : t.Balanced) : Balanced (s ++ t) := by
  refine ⟨?_, hs.above_append ht.above, ?_⟩
  · rw [hs.depthFrom_append, ht.depth_eq]
  · rw [List.getLast?_append]
    exact ht.previous_ne hs.last_ne

theorem enclosed (h : t.Balanced) {opening closing : Char} (hOpening : nesting none opening = 1)
    (hClosing : nesting none closing = -1) : Balanced (opening :: t ++ [closing]) := by
  have hOpens : (some opening) ≠ some '=' := by
    rintro ⟨⟩
    cases hOpening
  have hCloses : nesting (t.getLast?.or (some opening)) closing = -1 := by
    rw [nesting_congr (h.previous_ne hOpens) (Option.some_ne_none _).symm, hClosing]
  refine ⟨?_, ?_, ?_⟩
  · rw [List.cons_append, depthFrom, hOpening, Text.depthFrom_append,
      h.depthFrom_eq hOpens, depthFrom, hCloses]
    rfl
  · rw [List.cons_append, Above, hOpening, Text.above_append, h.depthFrom_eq hOpens, Above, hCloses]
    exact ⟨by omega, h.above_of hOpens (by omega), by omega, trivial⟩
  · rw [List.getLast?_append]
    rintro ⟨⟩
    cases hClosing

end Balanced

theorem balanced_of_blanks {t : Text} (h : ∀ c ∈ t, isBlank c = true) : t.Balanced :=
  .of_forall (fun c hc => nesting_of_isBlank (h c hc) none) fun hMem =>
    some_ne_equals_of_isBlank (h _ hMem) rfl

/-! ## Cuts -/

/-- No separator in the text is met at depth zero. -/
def Uncut (isSeparator : Char → Bool) (previous : Option Char) (depth : Int) : Text → Prop
  | [] => True
  | c :: t => ¬ (isSeparator c = true ∧ depth + nesting previous c = 0) ∧
    Uncut isSeparator (some c) (depth + nesting previous c) t

instance decidableUncut (isSeparator : Char → Bool) : (previous : Option Char) →
    (depth : Int) → (t : Text) →
    Decidable (Uncut isSeparator previous depth t)
  | _, _, [] => inferInstanceAs (Decidable True)
  | previous, depth, c :: t =>
    have := decidableUncut isSeparator (some c) (depth + nesting previous c) t
    inferInstanceAs (Decidable (_ ∧ _))

theorem uncut_of_forall {isSeparator : Char → Bool} {t : Text} (h : ∀ c ∈ t, isSeparator c = false)
    (previous : Option Char) (depth : Int) : Uncut isSeparator previous depth t := by
  induction t generalizing previous depth with
  | nil => trivial
  | cons c t ih =>
    obtain ⟨hc, ht⟩ := List.forall_mem_cons.mp h
    exact ⟨fun hCut => by rw [hc] at hCut; exact Bool.false_ne_true hCut.1, ih ht _ _⟩

theorem uncut_of_above {isSeparator : Char → Bool} {previous : Option Char} {depth : Int} {t : Text}
    (h : Above 0 previous depth t) : Uncut isSeparator previous depth t := by
  induction t generalizing previous depth with
  | nil => trivial
  | cons c t ih => exact ⟨fun hCut => by have := h.1; omega, ih h.2⟩

theorem Uncut.mono {isSeparator isSeparator' : Char → Bool} {previous : Option Char} {depth : Int}
    {t : Text} (h : Uncut isSeparator previous depth t)
    (hSeparators : ∀ c ∈ t, isSeparator' c = true → isSeparator c = true) :
    Uncut isSeparator' previous depth t := by
  induction t generalizing previous depth with
  | nil => trivial
  | cons c t ih =>
    obtain ⟨hc, ht⟩ := List.forall_mem_cons.mp hSeparators
    exact ⟨fun hCut => h.1 ⟨hc hCut.1, hCut.2⟩, ih h.2 ht⟩

theorem uncut_append {isSeparator : Char → Bool} {previous : Option Char} {depth : Int}
    {s t : Text} :
    Uncut isSeparator previous depth (s ++ t) ↔ Uncut isSeparator previous depth s ∧
      Uncut isSeparator (s.getLast?.or previous) (depthFrom previous depth s) t := by
  induction s generalizing previous depth with
  | nil => exact ⟨fun h => ⟨trivial, h⟩, fun h => h.2⟩
  | cons c s ih =>
    rw [List.cons_append, Uncut, ih, Uncut, depthFrom, getLast?_cons_or, and_assoc]

theorem uncut_congr {isSeparator : Char → Bool} {previous previous' : Option Char}
    (h : previous ≠ some '=') (h' : previous' ≠ some '=') {depth : Int} {t : Text} :
    Uncut isSeparator previous depth t ↔ Uncut isSeparator previous' depth t := by
  cases t with
  | nil => exact Iff.rfl
  | cons c t => rw [Uncut, Uncut, nesting_congr h h']

theorem uncut_enclosed {t : Text} (h : t.Balanced) {isSeparator : Char → Bool}
    {opening closing : Char} (hOpening : nesting none opening = 1)
    (hSeparators : isSeparator opening = false ∧ isSeparator closing = false)
    {previous : Option Char} (hPrevious : previous ≠ some '=') :
    Uncut isSeparator previous 0 (opening :: t ++ [closing]) := by
  have hOpens : some opening ≠ some '=' := by
    rintro ⟨⟩
    cases hOpening
  have hStep : (0 : Int) + nesting previous opening = 1 := by
    rw [nesting_congr hPrevious (Option.some_ne_none _).symm, hOpening]
    rfl
  rw [List.cons_append, Uncut, hStep]
  refine ⟨fun hCut => by omega,
    uncut_append.mpr ⟨uncut_of_above (h.above_of hOpens (by omega)), ?_⟩⟩
  exact ⟨fun hCut => by rw [hSeparators.2] at hCut; exact Bool.false_ne_true hCut.1, trivial⟩

theorem Balanced.uncut_append {isSeparator : Char → Bool} {s t : Text} (hBalanced : s.Balanced)
    (hs : Uncut isSeparator none 0 s) (ht : Uncut isSeparator none 0 t) :
    Uncut isSeparator none 0 (s ++ t) := by
  have hPrevious := hBalanced.previous_ne (Option.some_ne_none '=').symm
  refine Text.uncut_append.mpr ⟨hs, ?_⟩
  rw [hBalanced.depth_eq, uncut_congr hPrevious (Option.some_ne_none _).symm]
  exact ht

end Text

end TemplateCheck
