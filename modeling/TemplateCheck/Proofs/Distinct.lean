import Mathlib.Data.List.Basic
import Mathlib.Data.List.Induction
import Mathlib.Data.List.Nodup
import Mathlib.Tactic.Common
import TemplateCheck.Text.Basic

/-!
# Elements without repetitions

`distinct` keeps the elements of a list (`mem_distinct`), each once (`nodup_distinct`) and in the
order of their first occurrences (`pairwise_idxOf_distinct`).
-/

namespace TemplateCheck

variable {α : Type} [DecidableEq α]

theorem distinct_append_singleton (xs : List α) (x : α) :
    distinct (xs ++ [x]) = if x ∈ distinct xs then distinct xs else distinct xs ++ [x] := by
  unfold distinct
  rw [List.foldl_append]
  rfl

theorem mem_distinct {x : α} {xs : List α} : x ∈ distinct xs ↔ x ∈ xs := by
  induction xs using List.reverseRecOn with
  | nil => rfl
  | append_singleton xs y ih =>
    rw [distinct_append_singleton, List.mem_append, List.mem_singleton, ← ih]
    by_cases hSeen : y ∈ distinct xs
    · rw [if_pos hSeen]
      constructor
      · exact .inl
      · rintro (h | rfl)
        · exact h
        · exact hSeen
    · rw [if_neg hSeen, List.mem_append, List.mem_singleton]

theorem pairwise_idxOf_distinct [BEq α] [LawfulBEq α] (xs : List α) :
    (distinct xs).Pairwise fun a b => xs.idxOf a < xs.idxOf b := by
  induction xs using List.reverseRecOn with
  | nil => exact .nil
  | append_singleton xs x ih =>
    have hOld : (distinct xs).Pairwise fun a b => (xs ++ [x]).idxOf a < (xs ++ [x]).idxOf b := by
      refine ih.imp_of_mem fun ha hb hLt => ?_
      rwa [List.idxOf_append_of_mem (mem_distinct.mp ha),
        List.idxOf_append_of_mem (mem_distinct.mp hb)]
    rw [distinct_append_singleton]
    by_cases hSeen : x ∈ distinct xs
    · rwa [if_pos hSeen]
    · rw [if_neg hSeen, List.pairwise_append]
      refine ⟨hOld, List.pairwise_singleton _ _, ?_⟩
      intro a ha b hb
      obtain rfl := List.mem_singleton.mp hb
      rw [List.idxOf_append_of_mem (mem_distinct.mp ha),
        List.idxOf_append_of_notMem (mem_distinct.not.mp hSeen)]
      have hLt := List.idxOf_lt_length_of_mem (mem_distinct.mp ha)
      omega

theorem nodup_distinct (xs : List α) : (distinct xs).Nodup := by
  refine (pairwise_idxOf_distinct xs).imp fun {a b} hLt => ?_
  rintro rfl
  exact Nat.lt_irrefl _ hLt

end TemplateCheck
