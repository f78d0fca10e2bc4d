import PageCompiler.Text

/-!
# Ordered entries

A table from keys to values that remembers the order in which keys were first written. Writing a
key again keeps its place and changes its value.
-/

namespace PageCompiler

/-- Keys with their values, in the order in which the keys were first written. -/
abbrev Entries (α : Type) := List (Text × α)

namespace Entries

variable {α : Type}

/-- The keys, in order. -/
def keys (entries : Entries α) : List Text :=
  entries.map Prod.fst

/-- The value under `key`. -/
def get? (key : Text) : Entries α → Option α
  | [] => none
  | (k, value) :: rest => if k = key then some value else get? key rest

/-- Writes `value` under `key`, in the place of an earlier value if there is one. -/
def put (key : Text) (value : α) : Entries α → Entries α
  | [] => [(key, value)]
  | (k, old) :: rest => if k = key then (k, value) :: rest else (k, old) :: put key value rest

/-- Leaves out the first entry under `key`. -/
def erase (key : Text) : Entries α → Entries α
  | [] => []
  | (k, value) :: rest => if k = key then rest else (k, value) :: erase key rest

/-- Writes `value` under `key` in a table whose keys ascend, and keeps them ascending. -/
def putSorted (key : Text) (value : α) : Entries α → Entries α
  | [] => [(key, value)]
  | (k, old) :: rest =>
    if k = key then (k, value) :: rest
    else if key < k then (key, value) :: (k, old) :: rest
    else (k, old) :: putSorted key value rest

/-- Writes the pairs one after another into an empty table. -/
def ofPairs (pairs : List (Text × α)) : Entries α :=
  pairs.foldl (fun entries (key, value) => entries.put key value) []

/-- Writes the pairs one after another into an empty table with ascending keys. -/
def sorted (pairs : List (Text × α)) : Entries α :=
  pairs.foldl (fun entries (key, value) => entries.putSorted key value) []

theorem get?_put_self (key : Text) (value : α) (entries : Entries α) :
    (entries.put key value).get? key = some value := by
  induction entries with
  | nil => simp [put, get?]
  | cons entry rest ih =>
    obtain ⟨k, old⟩ := entry
    by_cases h : k = key <;> simp [put, get?, h, ih]

theorem get?_put_of_ne {key other : Text} (distinct : key ≠ other) (value : α)
    (entries : Entries α) : (entries.put key value).get? other = entries.get? other := by
  induction entries with
  | nil => simp [put, get?, distinct]
  | cons entry rest ih =>
    obtain ⟨k, old⟩ := entry
    by_cases h : k = key
    · subst h; simp [put, get?, distinct]
    · simp only [put, if_neg h, get?, ih]

theorem keys_put (key : Text) (value : α) (entries : Entries α) :
    (entries.put key value).keys =
      if key ∈ entries.keys then entries.keys else entries.keys ++ [key] := by
  induction entries with
  | nil => simp [put, keys]
  | cons entry rest ih =>
    obtain ⟨k, old⟩ := entry
    simp only [keys] at ih
    by_cases h : k = key
    · simp [put, keys, h]
    · by_cases g : key ∈ rest.map Prod.fst <;> simp_all [put, keys, eq_comm]

end Entries

end PageCompiler
