import Mathlib.Data.List.Induction
import TemplateCheck.Proofs.OrderedMap

/-!
# Histories of ordered maps

A map that starts empty is known by the changes made to it.

1. Under a key stands what the last change of the key left there (`get?_replay`).
2. The keys come in the order of the changes that last made them present
   (`pairwise_keys_replay`). A change after that keeps the place of the key
   (`PresentSince.append`).
-/

namespace TemplateCheck

namespace OrderedMap

/-- A change of an ordered map. -/
inductive Change (κ α : Type) where
  | put (key : κ) (value : α)
  | remove (key : κ)
  | clear
  | keep
deriving DecidableEq, Repr

variable {κ α : Type} [DecidableEq κ]

/-- The map after a change. -/
def Change.applyTo (m : OrderedMap κ α) : Change κ α → OrderedMap κ α
  | put key value => OrderedMap.put m key value
  | remove key => OrderedMap.remove m key
  | clear => []
  | keep => m

/-- The map that a history makes of the empty one. -/
def replay (history : List (Change κ α)) : OrderedMap κ α := history.foldl Change.applyTo []

/-- What a change leaves under a key that held `value` before. -/
def Change.leaves (key : κ) (value : Option α) : Change κ α → Option α
  | put other stored => if other = key then some stored else value
  | remove other => if other = key then none else value
  | clear => none
  | keep => value

/-- What a history leaves under a key: the value stored last, unless the key was forgotten since. -/
def latest? (history : List (Change κ α)) (key : κ) : Option α :=
  history.foldl (Change.leaves key) none

/-- The change at place `i` of the history stored a value under the key, which was not there before
and has been there ever since. -/
structure PresentSince (history : List (Change κ α)) (key : κ) (i : Nat) : Prop where
  stored : ∃ value, history[i]? = some (.put key value)
  absent : latest? (history.take i) key = none
  present : ∀ j, i < j → j ≤ history.length → (latest? (history.take j) key).isSome

variable {history : List (Change κ α)} {key : κ} {i : Nat}

theorem replay_append (history : List (Change κ α)) (change : Change κ α) :
    replay (history ++ [change]) = change.applyTo (replay history) := by
  unfold replay
  rw [List.foldl_append]
  rfl

theorem latest?_append (history : List (Change κ α)) (change : Change κ α) (key : κ) :
    latest? (history ++ [change]) key = change.leaves key (latest? history key) := by
  unfold latest?
  rw [List.foldl_append]
  rfl

/-! ## Values -/

theorem get?_remove (m : OrderedMap κ α) (key other : κ) :
    get? (remove m key) other = if key = other then none else get? m other := by
  induction m with
  | nil => simp [remove, get?]
  | cons entry m ih =>
    by_cases hKey : entry.1 = key
    · have hDrop : remove (entry :: m) key = remove m key :=
        List.filter_cons_of_neg (by simpa using hKey)
      rw [hDrop, ih, get?_cons, hKey]
      split_ifs
      · rfl
      · rfl
    · have hKeep : remove (entry :: m) key = entry :: remove m key :=
        List.filter_cons_of_pos (by simpa using hKey)
      rw [hKeep, get?_cons, get?_cons, ih]
      by_cases hOther : entry.1 = other
      · rw [if_pos hOther, if_pos hOther, if_neg]
        rintro rfl
        exact hKey hOther
      · rw [if_neg hOther, if_neg hOther]

theorem get?_applyTo (change : Change κ α) (m : OrderedMap κ α) (key : κ) :
    get? (change.applyTo m) key = change.leaves key (get? m key) := by
  cases change with
  | put stored value =>
    show get? (put m stored value) key = if stored = key then some value else get? m key
    by_cases hKey : stored = key
    · rw [hKey, get?_put_self, if_pos rfl]
    · rw [get?_put_of_ne m value (Ne.symm hKey), if_neg hKey]
  | remove removed => exact get?_remove m removed key
  | clear => rfl
  | keep => rfl

/-- Under a key stands what the history left there. -/
theorem get?_replay (history : List (Change κ α)) (key : κ) :
    get? (replay history) key = latest? history key := by
  induction history using List.reverseRecOn with
  | nil => rfl
  | append_singleton history change ih => rw [replay_append, get?_applyTo, ih, latest?_append]

/-! ## Keys -/

theorem mem_keys_iff {m : OrderedMap κ α} : key ∈ keys m ↔ (get? m key).isSome := by
  constructor
  · intro hKey
    rw [Option.isSome_iff_ne_none]
    intro hNone
    exact key_not_mem_of_get?_eq_none hNone hKey
  · intro hSome
    by_contra hKey
    rw [get?_eq_none hKey] at hSome
    cases hSome

theorem mem_keys_replay_iff : key ∈ keys (replay history) ↔ (latest? history key).isSome := by
  rw [mem_keys_iff, get?_replay]

theorem nodup_keys_replay (history : List (Change κ α)) : (keys (replay history)).Nodup := by
  induction history using List.reverseRecOn with
  | nil => exact List.nodup_nil
  | append_singleton history change ih =>
    rw [replay_append]
    cases change with
    | put key value => exact nodup_keys_put ih key value
    | remove key => exact nodup_keys_remove ih key
    | clear => exact List.nodup_nil
    | keep => exact ih

/-- A change takes keys away, or it adds a new one at the end. -/
theorem keys_applyTo (change : Change κ α) (m : OrderedMap κ α) :
    (keys (change.applyTo m)).Sublist (keys m) ∨
      ∃ key value, change = .put key value ∧ key ∉ keys m ∧
        keys (change.applyTo m) = keys m ++ [key] := by
  cases change with
  | put key value =>
    have hKeys : keys (Change.applyTo m (.put key value)) = _ := keys_put m key value
    by_cases hKey : key ∈ keys m
    · rw [if_pos hKey] at hKeys
      exact .inl (by rw [hKeys])
    · rw [if_neg hKey] at hKeys
      exact .inr ⟨key, value, rfl, hKey, hKeys⟩
  | remove key => exact .inl (List.filter_sublist.map _)
  | clear => exact .inl (List.nil_sublist _)
  | keep => exact .inl (List.Sublist.refl _)

/-! ## The order of the keys -/

theorem PresentSince.lt_length (h : PresentSince history key i) : i < history.length := by
  obtain ⟨value, hStored⟩ := h.stored
  exact (List.getElem?_eq_some_iff.mp hStored).1

/-- A later change that leaves the key there does not make it present anew. -/
theorem PresentSince.append (h : PresentSince history key i) {change : Change κ α}
    (hStill : (latest? (history ++ [change]) key).isSome) :
    PresentSince (history ++ [change]) key i := by
  have hi := h.lt_length
  exact {
    stored := by
      obtain ⟨value, hStored⟩ := h.stored
      exact ⟨value, by rw [List.getElem?_append_left hi, hStored]⟩
    absent := by
      rw [List.take_append_of_le_length (Nat.le_of_lt hi)]
      exact h.absent
    present := by
      intro j hij hj
      by_cases hOld : j ≤ history.length
      · rw [List.take_append_of_le_length hOld]
        exact h.present j hij hOld
      · have hWhole : j = (history ++ [change]).length := by
          rw [List.length_append, List.length_singleton] at hj ⊢
          omega
        rw [hWhole, List.take_length]
        exact hStill }

/-- A key that is stored for the first time, or again after it was forgotten, is present from then
on. -/
theorem presentSince_append_put {value : α} (h : latest? history key = none) :
    PresentSince (history ++ [.put key value]) key history.length where
  stored := ⟨value, by rw [List.getElem?_append_right (Nat.le_refl _), Nat.sub_self]; rfl⟩
  absent := by
    rw [List.take_append_of_le_length (Nat.le_refl _), List.take_length]
    exact h
  present := by
    intro j hij hj
    have hWhole : j = (history ++ [Change.put key value]).length := by
      rw [List.length_append, List.length_singleton] at hj ⊢
      omega
    rw [hWhole, List.take_length, latest?_append, Change.leaves, if_pos rfl]
    rfl

theorem exists_presentSince (h : key ∈ keys (replay history)) :
    ∃ i, PresentSince history key i := by
  induction history using List.reverseRecOn with
  | nil => cases h
  | append_singleton history change ih =>
    have hStill := mem_keys_replay_iff.mp h
    by_cases hOld : key ∈ keys (replay history)
    · obtain ⟨i, hi⟩ := ih hOld
      exact ⟨i, hi.append hStill⟩
    · rw [replay_append] at h
      rcases keys_applyTo change (replay history) with hSub | ⟨new, value, rfl, hNew, hKeys⟩
      · exact absurd (hSub.mem h) hOld
      · rw [hKeys] at h
        have hKey : key = new := by simpa [hOld] using h
        subst hKey
        rw [mem_keys_replay_iff, Option.not_isSome_iff_eq_none] at hNew
        exact ⟨history.length, presentSince_append_put hNew⟩

/-- The keys come in the order of the changes that last made them present. -/
theorem pairwise_keys_replay (history : List (Change κ α)) :
    (keys (replay history)).Pairwise fun a b =>
      ∃ i j, PresentSince history a i ∧ PresentSince history b j ∧ i < j := by
  induction history using List.reverseRecOn with
  | nil => exact .nil
  | append_singleton history change ih =>
    have hStill : ∀ key ∈ keys (replay (history ++ [change])),
        (latest? (history ++ [change]) key).isSome := fun key => mem_keys_replay_iff.mp
    rw [replay_append] at hStill ⊢
    have hStep : ∀ {ks : List κ}, ks.Sublist (keys (replay history)) →
        (∀ key ∈ ks, key ∈ keys (change.applyTo (replay history))) →
        ks.Pairwise fun a b => ∃ i j, PresentSince (history ++ [change]) a i ∧
          PresentSince (history ++ [change]) b j ∧ i < j := by
      intro ks hSub hMem
      refine (ih.sublist hSub).imp_of_mem ?_
      rintro a b ha hb ⟨i, j, hi, hj, hij⟩
      exact ⟨i, j, hi.append (hStill a (hMem a ha)), hj.append (hStill b (hMem b hb)), hij⟩
    rcases keys_applyTo change (replay history) with hSub | ⟨new, value, rfl, hNew, hKeys⟩
    · exact hStep hSub fun key => id
    · have hOld := hStep (List.Sublist.refl _) fun key hKey => by
        rw [hKeys]
        exact List.mem_append_left _ hKey
      rw [hKeys, List.pairwise_append]
      refine ⟨hOld, List.pairwise_singleton _ _, ?_⟩
      intro a ha b hb
      obtain rfl := List.mem_singleton.mp hb
      obtain ⟨i, hi⟩ := exists_presentSince ha
      have hBefore : latest? history b = none := by
        rwa [mem_keys_replay_iff, Option.not_isSome_iff_eq_none] at hNew
      have hKept : a ∈ keys (Change.applyTo (replay history) (.put b value)) := by
        rw [hKeys]
        exact List.mem_append_left _ ha
      exact ⟨i, history.length, hi.append (hStill a hKept), presentSince_append_put hBefore,
        hi.lt_length⟩

/-! ## The values in order -/

theorem values_eq_filterMap {m : OrderedMap κ α} (h : (keys m).Nodup) :
    values m = (keys m).filterMap (get? m) := by
  induction m with
  | nil => rfl
  | cons entry m ih =>
    obtain ⟨hEntry, hLater⟩ := List.nodup_cons.mp h
    have hHead : get? (entry :: m) entry.1 = some entry.2 := by rw [get?_cons, if_pos rfl]
    have hTail : (keys m).filterMap (get? (entry :: m)) = (keys m).filterMap (get? m) := by
      refine List.filterMap_congr fun key hKey => ?_
      rw [get?_cons, if_neg]
      rintro rfl
      exact hEntry hKey
    show entry.2 :: values m = (entry.1 :: keys m).filterMap (get? (entry :: m))
    rw [List.filterMap_cons_some hHead, hTail, ih hLater]

/-- The values of a replayed map are those that the history left, in the order of the keys. -/
theorem values_replay (history : List (Change κ α)) :
    values (replay history) = (keys (replay history)).filterMap (latest? history) := by
  rw [values_eq_filterMap (nodup_keys_replay history)]
  exact List.filterMap_congr fun key _ => get?_replay history key

end OrderedMap

end TemplateCheck
