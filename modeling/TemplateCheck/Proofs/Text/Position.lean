import Mathlib.Tactic.Common
import TemplateCheck.Text.Position

/-!
# Lines of offsets

The line that `positionIn` finds among the line starts of a text is the number of line feeds that
stand before the offset.
-/

namespace TemplateCheck

namespace Text

theorem lt_of_mem_laterLineStarts {start lineStart : Nat} {t : Text}
    (h : lineStart ∈ laterLineStarts start t) :
    start < lineStart := by
  induction t generalizing start with
  | nil => cases h
  | cons c t ih =>
    rw [laterLineStarts] at h
    split_ifs at h with hc
    · rcases List.mem_cons.mp h with rfl | h
      · exact Nat.lt_succ_self start
      · exact Nat.lt_trans (Nat.lt_succ_self start) (ih h)
    · exact Nat.lt_trans (Nat.lt_succ_self start) (ih h)

/-- Of the lines that begin later, as many begin up to an offset as there are line feeds
before it. -/
theorem countP_laterLineStarts (start length : Nat) (t : Text) :
    (laterLineStarts start t).countP (fun lineStart => decide (lineStart ≤ start + length)) =
      (t.take length).count '\n' := by
  induction t generalizing start length with
  | nil => rw [laterLineStarts, List.take_nil, List.countP_nil, List.count_nil]
  | cons c t ih =>
    cases length with
    | zero =>
      rw [List.take_zero, List.count_nil, List.countP_eq_zero]
      intro lineStart hMem
      have hLater := lt_of_mem_laterLineStarts hMem
      rw [decide_eq_true_iff]
      omega
    | succ length =>
      have hLater := ih (start + 1) length
      rw [show start + 1 + length = start + (length + 1) by omega] at hLater
      rw [laterLineStarts, List.take_succ_cons]
      by_cases hc : c = '\n'
      · rw [if_pos hc, List.countP_cons_of_pos (by rw [decide_eq_true_iff]; omega), hLater, hc,
          List.count_cons_self]
      · rw [if_neg hc, hLater, List.count_cons_of_ne hc]

theorem line_positionIn (t : Text) (offset : Nat) :
    (positionIn (lineStarts t) offset).line = ((t.take offset).count '\n' : Nat) := by
  have hCount := countP_laterLineStarts 0 offset t
  rw [Nat.zero_add] at hCount
  have hStarts :
      (lineStarts t).countP (fun (lineStart : Nat) => decide ((lineStart : Int) ≤ (offset : Int))) =
      (t.take offset).count '\n' + 1 := by
    simp only [Int.ofNat_le]
    rw [lineStarts, List.countP_cons_of_pos (by rw [decide_eq_true_iff]; omega), hCount]
  rw [positionIn]
  simp only [hStarts]

end Text

end TemplateCheck
