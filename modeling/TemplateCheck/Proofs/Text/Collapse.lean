import TemplateCheck.Proofs.Text.Bracket
import TemplateCheck.Proofs.Text.Slice

/-!
# What collapsing keeps

Collapsing shortens runs of blanks and leaves all other characters where they are, next to the same
neighbours. So it keeps what is counted outside blanks: depths (`depthFrom_collapseFrom`), balance
(`Balanced.collapseFrom`), the absence of cuts (`Uncut.collapseFrom`), and which texts without
blanks occur (`contains_collapseFrom`). Collapsing twice is collapsing once
(`collapseFrom_collapseFrom`).
-/

namespace TemplateCheck

namespace Text

/-! ## Depth -/

section

variable {pending : Bool} {previous previous' : Option Char} {t : Text}
  (hSame : ∀ c, nesting previous c = nesting previous' c)
  (hPending : pending = true → previous' ≠ some '=')

include hSame hPending

theorem depthFrom_collapseFrom (depth : Int) :
    depthFrom previous' depth (collapseFrom pending t) = depthFrom previous depth t := by
  induction t generalizing pending previous previous' depth with
  | nil => rfl
  | cons c t ih =>
    rw [collapseFrom, depthFrom]
    by_cases hBlank : isBlank c = true
    · rw [if_pos hBlank, nesting_of_isBlank hBlank, Int.add_zero]
      have hc := some_ne_equals_of_isBlank hBlank
      cases pending with
      | true => rw [if_pos rfl, ih (nesting_congr hc (hPending rfl)) fun _ => hPending rfl]
      | false =>
        rw [if_neg Bool.false_ne_true, depthFrom, nesting_of_isBlank (by decide), Int.add_zero,
          ih (nesting_congr hc (by decide)) fun _ => by decide]
    · rw [if_neg hBlank, depthFrom, hSame, ih (fun _ => rfl) fun h => absurd h Bool.false_ne_true]

theorem Above.collapseFrom {floor depth : Int} (h : Above floor previous depth t) :
    Above floor previous' depth (collapseFrom pending t) := by
  induction t generalizing pending previous previous' depth with
  | nil => trivial
  | cons c t ih =>
    obtain ⟨hFirst, hLater⟩ := h
    rw [Text.collapseFrom]
    by_cases hBlank : isBlank c = true
    · rw [nesting_of_isBlank hBlank, Int.add_zero] at hFirst hLater
      have hc := some_ne_equals_of_isBlank hBlank
      rw [if_pos hBlank]
      cases pending with
      | true =>
        rw [if_pos rfl]
        exact ih (nesting_congr hc (hPending rfl)) (fun _ => hPending rfl) hLater
      | false =>
        rw [if_neg Bool.false_ne_true, Above, nesting_of_isBlank (by decide), Int.add_zero]
        exact ⟨hFirst, ih (nesting_congr hc (by decide)) (fun _ => by decide) hLater⟩
    · rw [if_neg hBlank, Above, ← hSame]
      exact ⟨hFirst, ih (fun _ => rfl) (fun h => absurd h Bool.false_ne_true) hLater⟩

theorem Uncut.collapseFrom {isSeparator : Char → Bool}
    (hVisible : ∀ c, isBlank c = true → isSeparator c = false) {depth : Int}
    (h : Uncut isSeparator previous depth t) :
    Uncut isSeparator previous' depth (collapseFrom pending t) := by
  induction t generalizing pending previous previous' depth with
  | nil => trivial
  | cons c t ih =>
    obtain ⟨hFirst, hLater⟩ := h
    rw [Text.collapseFrom]
    by_cases hBlank : isBlank c = true
    · rw [nesting_of_isBlank hBlank, Int.add_zero] at hLater
      have hc := some_ne_equals_of_isBlank hBlank
      rw [if_pos hBlank]
      cases pending with
      | true =>
        rw [if_pos rfl]
        exact ih (nesting_congr hc (hPending rfl)) (fun _ => hPending rfl) hLater
      | false =>
        rw [if_neg Bool.false_ne_true, Uncut, nesting_of_isBlank (by decide), Int.add_zero,
          hVisible ' ' (by decide)]
        exact ⟨fun hCut => Bool.false_ne_true hCut.1,
          ih (nesting_congr hc (by decide)) (fun _ => by decide) hLater⟩
    · rw [if_neg hBlank, Uncut, ← hSame]
      exact ⟨hFirst, ih (fun _ => rfl) (fun h => absurd h Bool.false_ne_true) hLater⟩

end

/-! ## Ends -/

theorem collapseFrom_ne_nil (c : Char) (t : Text) : collapseFrom false (c :: t) ≠ [] := by
  rw [collapseFrom, if_neg Bool.false_ne_true]
  split_ifs
  · exact List.cons_ne_nil _ _
  · exact List.cons_ne_nil _ _

theorem mem_getLast?_collapseFrom {pending : Bool} {t : Text} {c : Char}
    (h : c ∈ (collapseFrom pending t).getLast?) : c = ' ' ∨ c ∈ t.getLast? := by
  induction t generalizing pending with
  | nil => cases h
  | cons d t ih =>
    have hLater : ∀ {e}, e ∈ t.getLast? → e ∈ (d :: t).getLast? := by
      intro e he
      rw [List.getLast?_cons, Option.mem_def.mp he]
      rfl
    rw [collapseFrom] at h
    split_ifs at h with hBlank hPending
    · exact (ih h).imp_right hLater
    · rw [List.getLast?_cons] at h
      cases hTail : (collapseFrom true t).getLast? with
      | none =>
        rw [hTail] at h
        exact .inl (Option.some.inj h).symm
      | some e =>
        rw [hTail] at h
        obtain rfl : e = c := Option.some.inj h
        exact (ih hTail).imp_right hLater
    · cases t with
      | nil => exact .inr h
      | cons e t =>
        rw [List.getLast?_cons_of_ne_nil (collapseFrom_ne_nil e t)] at h
        exact (ih h).imp_right hLater

theorem Balanced.collapseFrom {t : Text} (h : t.Balanced) (pending : Bool) :
    Balanced (collapseFrom pending t) where
  depth_eq :=
    (depthFrom_collapseFrom (fun _ => rfl) (fun _ => (Option.some_ne_none _).symm) 0).trans
    h.depth_eq
  above := h.above.collapseFrom (fun _ => rfl) fun _ => (Option.some_ne_none _).symm
  last_ne hLast := by
    rcases mem_getLast?_collapseFrom hLast with hBlank | hLast
    · cases hBlank
    · exact h.last_ne hLast

/-! ## Occurrences -/

theorem startsWith_collapseFrom {word t : Text} (hWord : ∀ c ∈ word, isBlank c = false)
    (h : startsWith word (collapseFrom false t) = true) : startsWith word t = true := by
  induction word generalizing t with
  | nil => rfl
  | cons a word ih =>
    obtain ⟨ha, hWord⟩ := List.forall_mem_cons.mp hWord
    cases t with
    | nil => cases h
    | cons c t =>
      rw [collapseFrom] at h
      by_cases hBlank : isBlank c = true
      · have hNe : a ≠ ' ' := by
          rintro rfl
          cases ha
        rw [if_pos hBlank, if_neg Bool.false_ne_true, startsWith_cons_of_ne hNe] at h
        cases h
      · rw [if_neg hBlank] at h
        by_cases hEq : a = c
        · subst hEq
          rw [startsWith_cons_self] at h ⊢
          exact ih hWord h
        · rw [startsWith_cons_of_ne hEq] at h
          cases h

theorem contains_collapseFrom {part t : Text} (hPart : ∀ c ∈ part, isBlank c = false)
    (hNonempty : part ≠ []) (h : contains part t = false) (pending : Bool) :
    contains part (collapseFrom pending t) = false := by
  induction t generalizing pending with
  | nil => exact h
  | cons c t ih =>
    rw [contains_cons, Bool.or_eq_false_iff] at h
    obtain ⟨hHere, hLater⟩ := h
    rw [collapseFrom]
    split_ifs with hBlank hPending
    · exact ih hLater true
    · rw [contains_cons, ih hLater, Bool.or_false]
      cases part with
      | nil => exact absurd rfl hNonempty
      | cons a part =>
        refine startsWith_cons_of_ne ?_
        rintro rfl
        cases hPart ' ' List.mem_cons_self
    · rw [contains_cons, ih hLater, Bool.or_false]
      refine Bool.eq_false_iff.mpr fun hStart => ?_
      have hCollapse : collapseFrom false (c :: t) = c :: collapseFrom false t := by
        rw [collapseFrom, if_neg hBlank]
      rw [← hCollapse] at hStart
      rw [startsWith_collapseFrom hPart hStart] at hHere
      cases hHere

/-! ## Collapsing again -/

theorem collapseFrom_collapseFrom (pending : Bool) (t : Text) :
    collapseFrom pending (collapseFrom pending t) = collapseFrom pending t := by
  induction t generalizing pending with
  | nil => rfl
  | cons c t ih =>
    rw [collapseFrom]
    by_cases hBlank : isBlank c = true
    · rw [if_pos hBlank]
      cases pending with
      | true => rw [if_pos rfl, ih]
      | false =>
        rw [if_neg Bool.false_ne_true, collapseFrom, if_pos (by decide),
          if_neg Bool.false_ne_true, ih]
    · rw [if_neg hBlank, collapseFrom, if_neg hBlank, ih]

theorem collapse_collapse (t : Text) : collapse (collapse t) = collapse t :=
  collapseFrom_collapseFrom false t

/-! ## Blanks at the ends -/

theorem collapseFrom_trimStart (t : Text) :
    collapseFrom true (trimStart t) = collapseFrom true t := by
  induction t with
  | nil => rfl
  | cons c t ih =>
    unfold trimStart
    rw [List.dropWhile_cons]
    split_ifs with hBlank
    · rw [collapseFrom, if_pos hBlank, if_pos rfl]
      exact ih
    · rfl

theorem trim_collapse_trimEnd (t : Text) : trim (collapse (trimEnd t)) = trim (collapse t) := by
  obtain ⟨blanks, hBlanks, hText⟩ := exists_trimEnd_append t
  rw [← congrArg collapse hText, collapse, collapse, collapseFrom_append]
  refine (trim_append_blanks (fun c hc => ?_) _).symm
  rcases mem_collapseFrom hc with rfl | ⟨hMem, -⟩
  · decide
  · exact hBlanks c hMem

/-- The blanks at the ends of a text do not count when it is collapsed and trimmed. -/
theorem trim_collapse_trim (t : Text) : trim (collapse (trim t)) = trim (collapse t) := by
  calc trim (collapse (trim t)) = trim (collapse (trimStart t)) :=
    trim_collapse_trimEnd (trimStart t)
    _ = trim (collapse t) := by rw [trim_collapse, collapseFrom_trimStart, trim_collapse]

/-! ## Texts that are collapsed and trimmed -/

/-- The text is not empty, and collapsing and trimming leave it as it is. -/
structure Tight (t : Text) : Prop where
  ne_nil : t ≠ []
  collapse_eq : collapse t = t
  trimmed : t.Trimmed

namespace Tight

variable {s t : Text}

theorem of_visible (hNonempty : t ≠ []) (h : ∀ c ∈ t, isBlank c = false) : t.Tight where
  ne_nil := hNonempty
  collapse_eq := collapseFrom_eq_self h false
  trimmed := ⟨fun c hc => h c (List.mem_of_mem_head? hc), fun c hc => h c (List.mem_of_getLast? hc)⟩

theorem collapseFrom_eq (h : t.Tight) (pending : Bool) : collapseFrom pending t = t := by
  obtain ⟨c, rest, rfl⟩ := List.exists_cons_of_ne_nil h.ne_nil
  have hVisible : ¬ isBlank c = true := Bool.eq_false_iff.mp (h.trimmed.head c rfl)
  have hSame : collapseFrom pending (c :: rest) = collapse (c :: rest) := by
    rw [collapse, collapseFrom, collapseFrom, if_neg hVisible, if_neg hVisible]
  rw [hSame, h.collapse_eq]

theorem collapseFrom_append (h : s.Tight) (pending : Bool) (t : Text) :
    collapseFrom pending (s ++ t) = s ++ collapseFrom false t := by
  have hAfter : pendingAfter pending s = false := by
    unfold pendingAfter
    rw [List.getLast?_eq_some_getLast h.ne_nil]
    exact h.trimmed.last _ (List.getLast?_eq_some_getLast h.ne_nil)
  rw [Text.collapseFrom_append, h.collapseFrom_eq, hAfter]

theorem append (hs : s.Tight) (ht : t.Tight) : Tight (s ++ t) where
  ne_nil := List.append_ne_nil_of_left_ne_nil hs.ne_nil t
  collapse_eq := by
    rw [collapse, hs.collapseFrom_append, ht.collapseFrom_eq]
  trimmed := by
    constructor
    · rw [List.head?_append_of_ne_nil s hs.ne_nil]
      exact hs.trimmed.head
    · rw [List.getLast?_append_of_ne_nil s ht.ne_nil]
      exact ht.trimmed.last

theorem spaced (hs : s.Tight) (ht : t.Tight) : Tight (s ++ ' ' :: t) where
  ne_nil := List.append_ne_nil_of_left_ne_nil hs.ne_nil _
  collapse_eq := by
    rw [collapse, hs.collapseFrom_append, collapseFrom, if_pos (by decide),
      if_neg Bool.false_ne_true, ht.collapseFrom_eq]
  trimmed := by
    constructor
    · rw [List.head?_append_of_ne_nil s hs.ne_nil]
      exact hs.trimmed.head
    · rw [List.getLast?_append_of_ne_nil s (List.cons_ne_nil _ _),
        List.getLast?_cons_of_ne_nil ht.ne_nil]
      exact ht.trimmed.last

theorem line_feed_not_mem (h : t.Tight) : '\n' ∉ t := by
  intro hMem
  rw [← h.collapse_eq] at hMem
  rcases mem_collapseFrom hMem with hEq | ⟨-, hBlank⟩
  · cases hEq
  · cases hBlank

end Tight

end Text

end TemplateCheck
