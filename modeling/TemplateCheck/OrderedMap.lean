/-!
# Ordered maps

A map from keys to values that remembers the order in which its keys became present. Storing under
a key that is present keeps the key's place; erasing it and storing again moves it to the end.
-/

namespace TemplateCheck

/-- Keys and values, in the order in which the keys became present. -/
abbrev OrderedMap (κ α : Type) := List (κ × α)

namespace OrderedMap

variable {κ α : Type} [DecidableEq κ]

/-- The value stored under a key. -/
def get? (m : OrderedMap κ α) (key : κ) : Option α := (m.find? fun entry => entry.1 = key).map (·.2)

/-- Whether the key is present. -/
def hasKey (m : OrderedMap κ α) (key : κ) : Bool := m.any fun entry => entry.1 = key

/-- Stores a value, in the place of the key when it is present and at the end otherwise. -/
def put : OrderedMap κ α → κ → α → OrderedMap κ α
  | [], key, value => [(key, value)]
  | entry :: m, key, value =>
    if entry.1 = key then (key, value) :: m else entry :: put m key value

/-- Stores a value unless the key is present. -/
def putNew (m : OrderedMap κ α) (key : κ) (value : α) : OrderedMap κ α :=
  if hasKey m key then m else m ++ [(key, value)]

/-- Forgets a key. -/
def remove (m : OrderedMap κ α) (key : κ) : OrderedMap κ α := m.filter fun entry => entry.1 ≠ key

/-- Adds one value to the list stored under a key. -/
def extend (m : OrderedMap κ (List α)) (key : κ) (value : α) : OrderedMap κ (List α) :=
  put m key ((get? m key).getD [] ++ [value])

/-- The keys in order. -/
def keys (m : OrderedMap κ α) : List κ := m.map (·.1)

/-- The values in the order of their keys. -/
def values (m : OrderedMap κ α) : List α := m.map (·.2)

/-- How often each element occurs, in order of first occurrence. -/
def tally (xs : List κ) : OrderedMap κ Nat :=
  xs.foldl (fun counts x => put counts x ((get? counts x).getD 0 + 1)) []

theorem get?_put_self (m : OrderedMap κ α) (key : κ) (value : α) :
    get? (put m key value) key = some value := by
  induction m with
  | nil => simp [put, get?]
  | cons entry m ih =>
    by_cases h : entry.1 = key
    · simp [put, get?, h]
    · simpa [put, get?, h] using ih

theorem get?_put_of_ne (m : OrderedMap κ α) {key other : κ} (value : α) (h : other ≠ key) :
    get? (put m key value) other = get? m other := by
  induction m with
  | nil => simp [put, get?, h.symm]
  | cons entry m ih =>
    by_cases hk : entry.1 = key
    · simp [put, get?, hk, h.symm]
    · by_cases ho : entry.1 = other
      · simp [put, get?, ho, h]
      · simpa [put, get?, hk, ho] using ih

end OrderedMap

end TemplateCheck
