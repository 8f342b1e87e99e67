/-! # Tables

A table gives every key at most one value. It is a list of entries in which the first entry for a
key counts; setting a key changes that entry or adds one at the end, so the order of the keys is the
order in which they were first set.
-/

namespace TokenLayout

/-- Values by key. -/
abbrev Table (α : Type) := List (String × α)

namespace Table

variable {α : Type}

def get? (table : Table α) (key : String) : Option α :=
  table.lookup key

/-- The table with another value for a key. -/
def set (table : Table α) (key : String) (value : α) : Table α :=
  match table with
  | [] => [(key, value)]
  | (first, old) :: rest =>
    if first = key then (key, value) :: rest else (first, old) :: Table.set rest key value

def keys (table : Table α) : List String :=
  table.map (·.1)

@[simp] theorem get?_set_self (table : Table α) (key : String) (value : α) :
    (table.set key value).get? key = some value := by
  induction table with
  | nil => simp [set, get?]
  | cons entry rest ih =>
    obtain ⟨first, old⟩ := entry
    by_cases h : first = key
    · simp [set, get?, h]
    · have : (key == first) = false := by simp [Ne.symm h]
      simpa [set, get?, List.lookup_cons, h, this] using ih

theorem get?_set_of_ne (table : Table α) {key other : String} (h : other ≠ key) (value : α) :
    (table.set key value).get? other = table.get? other := by
  induction table with
  | nil =>
    have : (other == key) = false := by simp [h]
    simp [set, get?, List.lookup_cons, this]
  | cons entry rest ih =>
    obtain ⟨first, old⟩ := entry
    by_cases hf : first = key
    · have : (other == key) = false := by simp [h]
      simp [set, get?, List.lookup_cons, hf, this]
    · by_cases ho : other = first
      · simp [set, get?, hf, ho]
      · have : (other == first) = false := by simp [ho]
        simpa [set, get?, List.lookup_cons, hf, this] using ih

end Table

end TokenLayout
