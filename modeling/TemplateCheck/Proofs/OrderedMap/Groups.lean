import Mathlib.Logic.Function.Basic
import TemplateCheck.Proofs.Distinct
import TemplateCheck.Proofs.OrderedMap

/-!
# Grouping by a key

Elements that are added one by one under their keys end up in groups, one for each key, in the order
in which the keys first occurred, and each group keeps the order of its elements (`foldl_extend`).
The groups are the map of a function on the keys (`tabulate`), and adding an element changes that
function at one place (`extend_tabulate`).
-/

namespace TemplateCheck

namespace OrderedMap

variable {κ α : Type} {ks : List κ} {f : κ → α} {key : κ}

/-- The map of a function on some keys. -/
def tabulate (ks : List κ) (f : κ → α) : OrderedMap κ α := ks.map fun k => (k, f k)

theorem keys_tabulate (ks : List κ) (f : κ → α) : keys (tabulate ks f) = ks := by
  unfold keys tabulate
  rw [List.map_map]
  exact List.map_id ks

theorem tabulate_append (ks later : List κ) (f : κ → α) :
    tabulate (ks ++ later) f = tabulate ks f ++ tabulate later f := List.map_append

theorem tabulate_congr {g : κ → α} (h : ∀ k ∈ ks, f k = g k) : tabulate ks f = tabulate ks g :=
  List.map_congr_left fun k hk => by rw [h k hk]

variable [DecidableEq κ]

theorem tabulate_update_of_notMem (h : key ∉ ks) (value : α) :
    tabulate ks (Function.update f key value) = tabulate ks f := by
  refine tabulate_congr fun k hk => Function.update_of_ne ?_ _ _
  rintro rfl
  exact h hk

theorem get?_tabulate_of_mem (h : key ∈ ks) : get? (tabulate ks f) key = some (f key) := by
  induction ks with
  | nil => cases h
  | cons k ks ih =>
    by_cases hKey : k = key
    · subst hKey
      exact (get?_cons _ _ _).trans (if_pos rfl)
    · exact (get?_cons _ _ _).trans
        ((if_neg hKey).trans (ih ((List.mem_cons.mp h).resolve_left (Ne.symm hKey))))

theorem put_tabulate_of_mem (hNodup : ks.Nodup) (h : key ∈ ks) (value : α) :
    put (tabulate ks f) key value = tabulate ks (Function.update f key value) := by
  induction ks with
  | nil => cases h
  | cons k ks ih =>
    obtain ⟨hNew, hNodup⟩ := List.nodup_cons.mp hNodup
    show (if k = key then (key, value) :: tabulate ks f
        else (k, f k) :: put (tabulate ks f) key value) =
      (k, Function.update f key value k) :: tabulate ks (Function.update f key value)
    by_cases hKey : k = key
    · subst hKey
      rw [if_pos rfl, Function.update_self, tabulate_update_of_notMem hNew]
    · rw [if_neg hKey, Function.update_of_ne hKey,
        ih hNodup ((List.mem_cons.mp h).resolve_left (Ne.symm hKey))]

/-- What is added under a key is the last of its list. -/
theorem extend_tabulate {f : κ → List α} (hNodup : ks.Nodup) (hEmpty : key ∉ ks → f key = [])
    (x : α) :
    extend (tabulate ks f) key x =
      tabulate (if key ∈ ks then ks else ks ++ [key]) (Function.update f key (f key ++ [x])) := by
  unfold extend
  by_cases hKey : key ∈ ks
  · rw [if_pos hKey, get?_tabulate_of_mem hKey, put_tabulate_of_mem hNodup hKey, Option.getD_some]
  · have hAbsent : key ∉ keys (tabulate ks f) := by rwa [keys_tabulate]
    have hValue : f key ++ [x] = [x] := by rw [hEmpty hKey, List.nil_append]
    have hLast : tabulate [key] (Function.update f key [x]) = [(key, [x])] := by
      show [(key, Function.update f key [x] key)] = _
      rw [Function.update_self]
    rw [if_neg hKey, get?_eq_none hAbsent, put_eq_append hAbsent, Option.getD_none,
      List.nil_append, hValue, tabulate_append, tabulate_update_of_notMem hKey, hLast]

/-- Elements that are added one by one under their keys are grouped by them. -/
theorem foldl_extend (keyOf : α → κ) (xs : List α) :
    xs.foldl (fun groups x => extend groups (keyOf x) x) [] =
      tabulate (distinct (xs.map keyOf)) fun k => xs.filter fun x => keyOf x = k := by
  induction xs using List.reverseRecOn with
  | nil => rfl
  | append_singleton xs x ih =>
    have hEmpty : keyOf x ∉ distinct (xs.map keyOf) →
        (xs.filter fun y => keyOf y = keyOf x) = [] := by
      intro hNew
      refine List.filter_eq_nil_iff.mpr fun y hy hSame => hNew ?_
      rw [mem_distinct, ← of_decide_eq_true hSame]
      exact List.mem_map_of_mem hy
    rw [List.foldl_append, ih, List.foldl_cons, List.foldl_nil,
      extend_tabulate (nodup_distinct _) hEmpty, List.map_append, List.map_singleton,
      distinct_append_singleton]
    refine tabulate_congr fun k _ => ?_
    rw [List.filter_append]
    by_cases hKey : k = keyOf x
    · subst hKey
      rw [Function.update_self, List.filter_cons_of_pos (by simp)]
      rfl
    · rw [Function.update_of_ne hKey, List.filter_cons_of_neg (by simpa using Ne.symm hKey),
        List.filter_nil, List.append_nil]

end OrderedMap

end TemplateCheck
