import Mathlib.Data.List.Perm.Basic
import Mathlib.Data.List.Nodup
import Mathlib.Tactic.Common
import TemplateCheck.OrderedMap

/-!
# Ordered maps with distinct keys

Storing and erasing keep the keys of a map distinct. In such a map a value is found exactly under
the key that it stands with (`get?_eq_some_iff`), and entries can be followed through storing and
erasing (`mem_put_iff`, `mem_remove_iff`). Both commute with a map over the values.
-/

namespace TemplateCheck

namespace OrderedMap

variable {κ α β : Type}

/-- The map with each value replaced by one computed from its key and itself. -/
def mapValues (f : κ → α → β) (m : OrderedMap κ α) : OrderedMap κ β :=
  m.map fun entry => (entry.1, f entry.1 entry.2)

theorem keys_mapValues (f : κ → α → β) (m : OrderedMap κ α) : keys (mapValues f m) = keys m := by
  simp [keys, mapValues]

theorem mem_mapValues {f : κ → α → β} {m : OrderedMap κ α} {key : κ} {value : β} :
    (key, value) ∈ mapValues f m ↔ ∃ found, (key, found) ∈ m ∧ f key found = value := by
  unfold mapValues
  rw [List.mem_map]
  constructor
  · rintro ⟨⟨other, found⟩, hMem, hEq⟩
    obtain ⟨rfl, rfl⟩ := Prod.mk.inj hEq
    exact ⟨found, hMem, rfl⟩
  · rintro ⟨found, hMem, rfl⟩
    exact ⟨_, hMem, rfl⟩

theorem mapValues_mapValues {γ : Type} (f : κ → α → β) (g : κ → β → γ) (m : OrderedMap κ α) :
    mapValues g (mapValues f m) = mapValues (fun key value => g key (f key value)) m := by
  unfold mapValues
  rw [List.map_map]
  rfl

theorem flatten_values_mapValues (f : α → β) (m : OrderedMap κ (List α)) :
    (values (mapValues (fun _ xs => xs.map f) m)).flatten = (values m).flatten.map f := by
  rw [List.map_flatten]
  unfold mapValues values
  rw [List.map_map, List.map_map]
  rfl

theorem key_not_mem {m later : OrderedMap κ α} {entry : κ × α}
    (h : (keys (m ++ entry :: later)).Nodup) : entry.1 ∉ keys m := by
  unfold keys at h
  rw [List.map_append, List.map_cons] at h
  exact fun hMem => List.disjoint_of_nodup_append h hMem List.mem_cons_self

variable [DecidableEq κ]

/-! ## Keys -/

theorem keys_put (m : OrderedMap κ α) (key : κ) (value : α) :
    keys (put m key value) = if key ∈ keys m then keys m else keys m ++ [key] := by
  induction m with
  | nil => rfl
  | cons entry m ih =>
    rw [put]
    split_ifs with hEntry hMem hMem
    · rw [← hEntry]
      rfl
    · exact absurd (by rw [← hEntry]; exact List.mem_cons_self) hMem
    · have hLater : key ∈ keys m := (List.mem_cons.mp hMem).resolve_left (Ne.symm hEntry)
      show entry.1 :: keys (put m key value) = entry.1 :: keys m
      rw [ih, if_pos hLater]
    · have hLater : key ∉ keys m := fun h => hMem (List.mem_cons_of_mem _ h)
      show entry.1 :: keys (put m key value) = entry.1 :: keys m ++ [key]
      rw [ih, if_neg hLater]
      rfl

theorem nodup_keys_put {m : OrderedMap κ α} (h : (keys m).Nodup) (key : κ) (value : α) :
    (keys (put m key value)).Nodup := by
  rw [keys_put]
  split_ifs with hKey
  · exact h
  · exact List.nodup_append'.mpr ⟨h, List.nodup_singleton key, by simpa using hKey⟩

theorem nodup_keys_remove {m : OrderedMap κ α} (h : (keys m).Nodup) (key : κ) :
    (keys (remove m key)).Nodup :=
  h.sublist (List.filter_sublist.map _)

theorem put_eq_append {m : OrderedMap κ α} {key : κ} (h : key ∉ keys m) (value : α) :
    put m key value = m ++ [(key, value)] := by
  induction m with
  | nil => rfl
  | cons entry m ih =>
    obtain ⟨hEntry, hLater⟩ := not_or.mp (List.mem_cons.not.mp h)
    rw [put, if_neg (Ne.symm hEntry), ih hLater]
    rfl

theorem remove_eq_self {m : OrderedMap κ α} {key : κ} (h : key ∉ keys m) : remove m key = m := by
  refine List.filter_eq_self.mpr fun entry hEntry => ?_
  rw [decide_eq_true_iff]
  rintro rfl
  exact h (List.mem_map_of_mem hEntry)

theorem foldl_put_eq_append {m entries : OrderedMap κ α} (h : (keys (m ++ entries)).Nodup) :
    entries.foldl (fun m entry => put m entry.1 entry.2) m = m ++ entries := by
  induction entries generalizing m with
  | nil => simp
  | cons entry entries ih =>
    rw [List.foldl_cons, put_eq_append (key_not_mem h), ih, List.append_assoc,
      List.singleton_append]
    rwa [List.append_assoc, List.singleton_append]

/-! ## Entries -/

theorem get?_cons (entry : κ × α) (m : OrderedMap κ α) (key : κ) :
    get? (entry :: m) key = if entry.1 = key then some entry.2 else get? m key := by
  unfold get?
  by_cases h : entry.1 = key <;> simp [h]

theorem get?_append (m later : OrderedMap κ α) (key : κ) :
    get? (m ++ later) key = (get? m key).or (get? later key) := by
  unfold get?
  rw [List.find?_append, Option.map_or]

/-- Of entries that are stored only under new keys, the first one counts. -/
theorem get?_foldl_putNew (m entries : OrderedMap κ α) (key : κ) :
    get? (entries.foldl (fun m entry => putNew m entry.1 entry.2) m) key =
      (get? m key).or (get? entries key) := by
  induction entries generalizing m with
  | nil => rw [List.foldl_nil, show get? ([] : OrderedMap κ α) key = none from rfl, Option.or_none]
  | cons entry entries ih =>
    rw [List.foldl_cons, ih, putNew, get?_cons]
    split_ifs with hHas hKey hKey
    · -- The key has a value, and keeps it.
      obtain ⟨first, hFirst, hSame⟩ := List.any_eq_true.mp hHas
      have hSome : (get? m key).isSome := by
        rw [get?, Option.isSome_map, List.find?_isSome]
        exact ⟨first, hFirst, by rw [← hKey]; exact hSame⟩
      rw [Option.or_of_isSome hSome, Option.or_of_isSome hSome]
    · rfl
    · rw [get?_append, Option.or_assoc, get?_cons, if_pos hKey, Option.some_or]
    · rw [get?_append, Option.or_assoc, get?_cons, if_neg hKey]
      rfl

/-- A value is found under the key that it stands with. -/
theorem get?_eq_some_iff {m : OrderedMap κ α} (h : (keys m).Nodup) {key : κ} {value : α} :
    get? m key = some value ↔ (key, value) ∈ m := by
  induction m with
  | nil => simp [get?]
  | cons entry m ih =>
    obtain ⟨hEntry, hLater⟩ := List.nodup_cons.mp h
    rw [get?_cons, List.mem_cons]
    split_ifs with hKey
    · subst hKey
      constructor
      · intro hValue
        rw [← Option.some.inj hValue]
        exact .inl rfl
      · rintro (hEq | hMem)
        · rw [← hEq]
        · exact absurd (List.mem_map_of_mem hMem) hEntry
    · rw [ih hLater]
      constructor
      · exact .inr
      · rintro (hEq | hMem)
        · exact absurd (congrArg Prod.fst hEq).symm hKey
        · exact hMem

theorem get?_eq_of_perm {m m' : OrderedMap κ α} (h : m.Perm m') (hKeys : (keys m).Nodup) (key : κ) :
    get? m key = get? m' key := by
  have hKeys' : (keys m').Nodup := (h.map _).nodup_iff.mp hKeys
  refine Option.ext fun value => ?_
  rw [get?_eq_some_iff hKeys, get?_eq_some_iff hKeys', h.mem_iff]

theorem get?_eq_none {m : OrderedMap κ α} {key : κ} (h : key ∉ keys m) : get? m key = none := by
  induction m with
  | nil => rfl
  | cons entry m ih =>
    obtain ⟨hEntry, hLater⟩ := not_or.mp (List.mem_cons.not.mp h)
    rw [get?_cons, if_neg (Ne.symm hEntry), ih hLater]

theorem key_not_mem_of_get?_eq_none {m : OrderedMap κ α} {key : κ} (h : get? m key = none) :
    key ∉ keys m := by
  unfold get? at h
  rw [Option.map_eq_none_iff, List.find?_eq_none] at h
  intro hKey
  obtain ⟨entry, hEntry, hEq⟩ := List.mem_map.mp hKey
  exact h entry hEntry (decide_eq_true hEq)

/-- A key with an empty list need not be kept. -/
theorem getD_get?_filter_ne_nil {m : OrderedMap κ (List α)} (h : (keys m).Nodup) (key : κ) :
    (get? (m.filter fun entry => entry.2 ≠ []) key).getD [] = (get? m key).getD [] := by
  induction m with
  | nil => rfl
  | cons entry m ih =>
    obtain ⟨hEntry, hLater⟩ := List.nodup_cons.mp h
    by_cases hEmpty : entry.2 = []
    · rw [List.filter_cons_of_neg (by simpa using hEmpty), ih hLater, get?_cons]
      split_ifs with hKey
      · subst hKey
        rw [get?_eq_none hEntry, hEmpty]
        rfl
      · rfl
    · rw [List.filter_cons_of_pos (by simpa using hEmpty), get?_cons, get?_cons]
      split_ifs
      · rfl
      · exact ih hLater

/-- A key with an empty list adds nothing to the lists of all keys. -/
theorem flatten_values_remove {m : OrderedMap κ (List α)} (h : (keys m).Nodup) {key : κ}
    (hEmpty : (get? m key).getD [] = []) :
    (values (remove m key)).flatten = (values m).flatten := by
  induction m with
  | nil => rfl
  | cons entry m ih =>
    obtain ⟨hEntry, hLater⟩ := List.nodup_cons.mp h
    rw [get?_cons] at hEmpty
    by_cases hKey : entry.1 = key
    · subst hKey
      have hNil : entry.2 = [] := by rwa [if_pos rfl] at hEmpty
      have hRemove : remove (entry :: m) entry.1 = m := by
        rw [remove, List.filter_cons_of_neg (by simp)]
        exact remove_eq_self hEntry
      rw [hRemove]
      show (values m).flatten = entry.2 ++ (values m).flatten
      rw [hNil, List.nil_append]
    · rw [if_neg hKey] at hEmpty
      have hRemove : remove (entry :: m) key = entry :: remove m key :=
        List.filter_cons_of_pos (decide_eq_true hKey)
      rw [hRemove]
      exact congrArg (entry.2 ++ ·) (ih hLater hEmpty)

theorem mem_remove_iff {m : OrderedMap κ α} {key : κ} {entry : κ × α} :
    entry ∈ remove m key ↔ entry ∈ m ∧ entry.1 ≠ key := by
  simp [remove]

theorem mem_put_iff {m : OrderedMap κ α} (h : (keys m).Nodup) {key : κ} {value : α}
    {entry : κ × α} :
    entry ∈ put m key value ↔ entry = (key, value) ∨ entry ∈ m ∧ entry.1 ≠ key := by
  obtain ⟨other, stored⟩ := entry
  rw [← get?_eq_some_iff (nodup_keys_put h key value), ← get?_eq_some_iff h]
  by_cases hKey : other = key
  · subst hKey
    simp [get?_put_self, eq_comm]
  · simp [get?_put_of_ne m value hKey, hKey]

/-! ## Maps over the values -/

theorem get?_mapValues (f : κ → α → β) (m : OrderedMap κ α) (key : κ) :
    get? (mapValues f m) key = (get? m key).map (f key) := by
  induction m with
  | nil => rfl
  | cons entry m ih =>
    show get? ((entry.1, f entry.1 entry.2) :: mapValues f m) key = _
    rw [get?_cons, get?_cons, ih]
    split_ifs with h
    · rw [← h]
      rfl
    · rfl

theorem put_mapValues (f : κ → α → β) (m : OrderedMap κ α) (key : κ) (value : α) :
    put (mapValues f m) key (f key value) = mapValues f (put m key value) := by
  induction m with
  | nil => rfl
  | cons entry m ih =>
    show put ((entry.1, f entry.1 entry.2) :: mapValues f m) key (f key value) = _
    rw [put, put]
    split_ifs with h
    · rfl
    · rw [ih]
      rfl

theorem remove_mapValues (f : κ → α → β) (m : OrderedMap κ α) (key : κ) :
    remove (mapValues f m) key = mapValues f (remove m key) := by
  unfold remove mapValues
  rw [List.filter_map]
  rfl

end OrderedMap

end TemplateCheck
