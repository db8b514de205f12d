import Mathlib.Data.List.Basic
import Mathlib.Data.List.TakeWhile
import Mathlib.Tactic.Common
import TemplateCheck.Text.Blank

/-!
# Trimming and collapsing

A text is trimmed when no blank stands at either of its ends (`Text.Trimmed`), and trimming leaves
such a text as it is. Collapsing goes through neighbouring parts one after the other, each part
knowing only whether the one before it ended in a blank (`collapseFrom_append`).
-/

namespace TemplateCheck

namespace Text

/-! ## Trimming -/

/-- No blank stands at either end. -/
structure Trimmed (t : Text) : Prop where
  head : ∀ c ∈ t.head?, isBlank c = false
  last : ∀ c ∈ t.getLast?, isBlank c = false

theorem trimStart_eq_self {t : Text} (h : ∀ c ∈ t.head?, isBlank c = false) : trimStart t = t := by
  cases t with
  | nil => rfl
  | cons c t => exact List.dropWhile_cons_of_neg (by rw [h c rfl]; exact Bool.false_ne_true)

theorem dropRightWhile_eq_self {p : Char → Bool} {t : Text} (h : ∀ c ∈ t.getLast?, p c = false) :
    dropRightWhile p t = t := by
  unfold dropRightWhile
  rw [← List.reverse_reverse t, List.getLast?_reverse] at h
  cases hReverse : t.reverse with
  | nil => rw [← List.reverse_reverse t, hReverse]; rfl
  | cons c rest =>
    rw [hReverse] at h
    rw [List.dropWhile_cons_of_neg (by rw [h c rfl]; exact Bool.false_ne_true), ← hReverse,
      List.reverse_reverse]

theorem Trimmed.trim_eq {t : Text} (h : t.Trimmed) : trim t = t := by
  unfold trim
  rw [trimStart_eq_self h.head]
  exact dropRightWhile_eq_self h.last

theorem trimStart_append {blanks : Text} (h : ∀ c ∈ blanks, isBlank c = true) (t : Text) :
    trimStart (blanks ++ t) = trimStart t := by
  exact List.dropWhile_append_of_pos h

theorem isBlank_head?_trimStart (t : Text) : ∀ c ∈ (trimStart t).head?, isBlank c = false := by
  intro c hc
  have hNot := List.head?_dropWhile_not isBlank t
  rwa [show (t.dropWhile isBlank).head? = some c from hc] at hNot

theorem trimEnd_append {blanks : Text} (h : ∀ c ∈ blanks, isBlank c = true) (t : Text) :
    trimEnd (t ++ blanks) = trimEnd t := by
  unfold trimEnd dropRightWhile
  rw [List.reverse_append,
    List.dropWhile_append_of_pos fun c hc => h c (List.mem_reverse.mp hc)]

theorem trim_eq_nil {t : Text} (h : ∀ c ∈ t, isBlank c = true) : trim t = [] := by
  unfold trim
  rw [trimStart_eq_nil (List.all_eq_true.mpr h)]
  rfl

theorem getLast?_dropRightWhile_not (p : Char → Bool) (t : Text) :
    ∀ c ∈ (dropRightWhile p t).getLast?, p c = false := by
  intro c hc
  unfold dropRightWhile at hc
  rw [List.getLast?_reverse] at hc
  have hNot := List.head?_dropWhile_not p t.reverse
  rwa [Option.mem_def.mp hc] at hNot

theorem isBlank_getLast?_trimEnd (t : Text) : ∀ c ∈ (trimEnd t).getLast?, isBlank c = false :=
  getLast?_dropRightWhile_not isBlank t

/-- Trimming the end goes no further than a character that is not blank. -/
theorem trimEnd_append_cons (s : Text) {c : Char} (hc : isBlank c = false) (t : Text) :
    trimEnd (s ++ c :: t) = s ++ c :: trimEnd t := by
  have hStop : ¬ isBlank c = true := by
    rw [hc]
    exact Bool.false_ne_true
  have hDrop : (t.reverse ++ (c :: s.reverse)).dropWhile isBlank =
      t.reverse.dropWhile isBlank ++ (c :: s.reverse) := by
    rw [List.dropWhile_append]
    split_ifs with hEmpty
    · rw [List.isEmpty_iff.mp hEmpty, List.dropWhile_cons_of_neg hStop, List.nil_append]
    · rfl
  unfold trimEnd dropRightWhile
  rw [List.reverse_append, List.reverse_cons, List.append_assoc, List.singleton_append, hDrop,
    List.reverse_append, List.reverse_cons, List.reverse_reverse, List.append_assoc,
    List.singleton_append]

theorem trimEnd_append_of_ne_nil (s : Text) {t : Text} (h : trimEnd t ≠ []) :
    trimEnd (s ++ t) = s ++ trimEnd t := by
  have hSome : (t.reverse.dropWhile isBlank).isEmpty = false :=
    List.isEmpty_eq_false_iff.mpr (List.reverse_ne_nil_iff.mp h)
  unfold trimEnd dropRightWhile
  rw [List.reverse_append, List.dropWhile_append, hSome, if_neg Bool.false_ne_true,
    List.reverse_append, List.reverse_reverse]

theorem Trimmed.isBlank_getLast?_append {t : Text} (h : t.Trimmed) (hNonempty : t ≠ []) (s : Text) :
    ∀ c ∈ (s ++ t).getLast?, isBlank c = false := by
  rw [List.getLast?_append_of_ne_nil _ hNonempty]
  exact h.last

theorem Trimmed.append {s t : Text} (hs : s.Trimmed) (ht : t.Trimmed) (hFirst : s ≠ [])
    (hLast : t ≠ []) (middle : Text) : (s ++ (middle ++ t)).Trimmed where
  head := by
    rw [List.head?_append_of_ne_nil _ hFirst]
    exact hs.head
  last := by
    rw [← List.append_assoc]
    exact ht.isBlank_getLast?_append hLast _

/-- What trimming the end leaves is trimmed but for blanks at its start. -/
theorem exists_trimEnd_eq (t : Text) :
    ∃ blanks : Text, (∀ c ∈ blanks, isBlank c = true) ∧ trimEnd t = blanks ++ trim t := by
  have hText : t.takeWhile isBlank ++ trimStart t = t := List.takeWhile_append_dropWhile
  have hBlanks : ∀ c ∈ t.takeWhile isBlank, isBlank c = true := fun _ => List.mem_takeWhile_imp
  unfold trim
  cases hStart : trimStart t with
  | nil =>
    rw [hStart, List.append_nil] at hText
    have hEnd := trimEnd_append hBlanks []
    rw [List.nil_append, hText] at hEnd
    exact ⟨[], nofun, hEnd⟩
  | cons c rest =>
    have hVisible : isBlank c = false := isBlank_head?_trimStart t c (by rw [hStart]; rfl)
    have hEnd := trimEnd_append_cons [] hVisible rest
    refine ⟨t.takeWhile isBlank, hBlanks, ?_⟩
    rw [← List.nil_append (c :: rest), hEnd, List.nil_append,
      ← trimEnd_append_cons _ hVisible, ← hStart, hText]

theorem trim_blanks_append {blanks : Text} (h : ∀ c ∈ blanks, isBlank c = true) (t : Text) :
    trim (blanks ++ t) = trim t :=
  congrArg trimEnd (trimStart_append h t)

theorem trim_append_blanks {blanks : Text} (h : ∀ c ∈ blanks, isBlank c = true) (t : Text) :
    trim (t ++ blanks) = trim t := by
  unfold trim trimStart
  rw [List.dropWhile_append]
  split_ifs with hEmpty
  · rw [List.isEmpty_iff.mp hEmpty]
    exact congrArg trimEnd (trimStart_eq_nil (List.all_eq_true.mpr h))
  · exact trimEnd_append h _

theorem dropRightWhile_sublist (p : Char → Bool) (t : Text) : (dropRightWhile p t).Sublist t := by
  have hDrop := List.reverse_sublist.mpr (List.dropWhile_sublist p (l := t.reverse))
  rwa [List.reverse_reverse] at hDrop

theorem trim_sublist (t : Text) : (trim t).Sublist t :=
  (dropRightWhile_sublist _ _).trans (List.dropWhile_sublist _)

theorem trimmed_trim (t : Text) : (trim t).Trimmed := by
  refine ⟨?_, isBlank_getLast?_trimEnd _⟩
  unfold trim
  cases hStart : trimStart t with
  | nil => exact nofun
  | cons c rest =>
    have hVisible : isBlank c = false := isBlank_head?_trimStart t c (by rw [hStart]; rfl)
    rw [← List.nil_append (c :: rest), trimEnd_append_cons [] hVisible]
    rintro d ⟨⟩
    exact hVisible

theorem trim_cons {c : Char} (hc : isBlank c = true) (t : Text) : trim (c :: t) = trim t :=
  congrArg trimEnd (List.dropWhile_cons_of_pos hc)

theorem head?_trim_cons {c : Char} (hc : isBlank c = false) (t : Text) :
    (trim (c :: t)).head? = some c := by
  have hStart : trimStart (c :: t) = c :: t := trimStart_eq_self fun d hd => Option.some.inj hd ▸ hc
  unfold trim
  rw [hStart, ← List.nil_append (c :: t), trimEnd_append_cons [] hc]
  rfl

theorem mem_trim {t : Text} {c : Char} (hc : c ∈ t) (hVisible : isBlank c = false) :
    c ∈ trim t := by
  have hKept : ∀ {t : Text}, c ∈ t → c ∈ t.dropWhile isBlank := by
    intro t hc
    rw [← List.takeWhile_append_dropWhile (p := isBlank) (l := t)] at hc
    rcases List.mem_append.mp hc with hBlank | hRest
    · rw [List.mem_takeWhile_imp hBlank] at hVisible
      cases hVisible
    · exact hRest
  exact List.mem_reverse.mpr (hKept (List.mem_reverse.mpr (hKept hc)))

/-! ## Collapsing -/

/-- Whether a run of blanks has just been replaced, after a part that follows `pending`. -/
def pendingAfter (pending : Bool) (t : Text) : Bool := (t.getLast?.map isBlank).getD pending

theorem pendingAfter_cons (pending : Bool) (c : Char) (t : Text) :
    pendingAfter pending (c :: t) = pendingAfter (isBlank c) t := by
  unfold pendingAfter
  rw [List.getLast?_cons]
  cases t.getLast? <;> rfl

theorem collapseFrom_append (pending : Bool) (s t : Text) :
    collapseFrom pending (s ++ t) =
      collapseFrom pending s ++ collapseFrom (pendingAfter pending s) t := by
  induction s generalizing pending with
  | nil => rfl
  | cons c s ih =>
    rw [pendingAfter_cons, List.cons_append, collapseFrom, collapseFrom]
    cases hBlank : isBlank c with
    | false => rw [if_neg Bool.false_ne_true, if_neg Bool.false_ne_true, ih]; rfl
    | true =>
      cases pending with
      | false =>
        rw [if_pos rfl, if_pos rfl, if_neg Bool.false_ne_true, if_neg Bool.false_ne_true, ih]; rfl
      | true => rw [if_pos rfl, if_pos rfl, if_pos rfl, if_pos rfl, ih]

/-- Spaces are the only blanks that collapsing leaves. -/
theorem mem_collapseFrom {pending : Bool} {t : Text} {c : Char} (h : c ∈ collapseFrom pending t) :
    c = ' ' ∨ c ∈ t ∧ isBlank c = false := by
  induction t generalizing pending with
  | nil => cases h
  | cons d t ih =>
    have hLater : ∀ {pending : Bool}, c ∈ collapseFrom pending t →
        c = ' ' ∨ c ∈ d :: t ∧ isBlank c = false := fun hc =>
      (ih hc).imp_right fun hMem => ⟨List.mem_cons_of_mem d hMem.1, hMem.2⟩
    rw [collapseFrom] at h
    split_ifs at h with hBlank hPending
    · exact hLater h
    · exact (List.mem_cons.mp h).elim .inl hLater
    · rcases List.mem_cons.mp h with rfl | h
      · exact .inr ⟨List.mem_cons_self, Bool.eq_false_iff.mpr hBlank⟩
      · exact hLater h

theorem length_collapseFrom_le (pending : Bool) (t : Text) :
    (collapseFrom pending t).length ≤ t.length := by
  induction t generalizing pending with
  | nil => exact Nat.le_refl _
  | cons c t ih =>
    rw [collapseFrom]
    split_ifs
    · exact Nat.le_succ_of_le (ih true)
    · exact Nat.succ_le_succ (ih true)
    · exact Nat.succ_le_succ (ih false)

/-- Without the blanks at its start, a collapsed text is what a run of blanks before it leaves. -/
theorem trimStart_collapseFrom (pending : Bool) (t : Text) :
    trimStart (collapseFrom pending t) = collapseFrom true t := by
  induction t generalizing pending with
  | nil => rfl
  | cons c t ih =>
    rw [collapseFrom, collapseFrom]
    cases hBlank : isBlank c with
    | false =>
      rw [if_neg Bool.false_ne_true, if_neg Bool.false_ne_true]
      refine trimStart_eq_self ?_
      rintro d ⟨⟩
      exact hBlank
    | true =>
      rw [if_pos rfl, if_pos rfl, if_pos rfl]
      cases pending with
      | false => exact ih true
      | true => exact ih true

theorem trim_collapse (t : Text) : trim (collapse t) = trimEnd (collapseFrom true t) :=
  congrArg trimEnd (trimStart_collapseFrom false t)

theorem trim_collapse_append {s t : Text} (hHead : ∀ c ∈ s.head?, isBlank c = false)
    (hLast : pendingAfter false s = true) (hNonempty : trim (collapse t) ≠ []) :
    trim (collapse (s ++ t)) = collapse s ++ trim (collapse t) := by
  cases s with
  | nil => cases hLast
  | cons c s =>
    have hVisible : isBlank c = false := hHead c rfl
    have hCollapse : collapse (c :: s ++ t) = collapse (c :: s) ++ collapseFrom true t := by
      rw [collapse, collapseFrom_append, hLast]
      rfl
    have hStart : trimStart (collapse (c :: s) ++ collapseFrom true t) =
        collapse (c :: s) ++ collapseFrom true t := by
      refine trimStart_eq_self ?_
      rw [collapse, collapseFrom, hVisible]
      rintro d ⟨⟩
      exact hVisible
    rw [trim_collapse] at hNonempty
    rw [hCollapse, trim, hStart, trimEnd_append_of_ne_nil _ hNonempty, trim_collapse]

theorem collapseFrom_eq_self {t : Text} (h : ∀ c ∈ t, isBlank c = false) (pending : Bool) :
    collapseFrom pending t = t := by
  induction t generalizing pending with
  | nil => rfl
  | cons c t ih =>
    obtain ⟨hc, ht⟩ := List.forall_mem_cons.mp h
    rw [collapseFrom, if_neg (by rw [hc]; exact Bool.false_ne_true), ih ht]

end Text

end TemplateCheck
