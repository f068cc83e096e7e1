namespace SwitchShell

/-! Finite maps from text, kept as lists of pairs in increasing order of keys.

`find?` is the view through which a dictionary is read; `insert` and `erase`
keep the keys sorted, so two dictionaries with the same entries are the same
list.  Texts are ordered by code point, which is also the order of their UTF-8
bytes.
-/

abbrev Dictionary (α : Type u) := List (String × α)

namespace Dictionary

/-- The keys increase strictly. -/
def Sorted (entries : Dictionary α) : Prop :=
  entries.Pairwise fun left right => left.1 < right.1

def find? (key : String) : Dictionary α → Option α
  | [] => none
  | (name, value) :: rest => if name = key then some value else find? key rest

def contains (key : String) (entries : Dictionary α) : Bool :=
  (find? key entries).isSome

/-- Binds `key` to `value`, in the place of an earlier binding if there is one. -/
def insert (key : String) (value : α) : Dictionary α → Dictionary α
  | [] => [(key, value)]
  | (name, old) :: rest =>
      if name = key then (key, value) :: rest
      else if key < name then (key, value) :: (name, old) :: rest
      else (name, old) :: insert key value rest

def erase (key : String) (entries : Dictionary α) : Dictionary α :=
  entries.filter fun entry => entry.1 ≠ key

/-- Binds `key` only if it is not bound yet. -/
def insertNew (key : String) (value : α) (entries : Dictionary α) : Dictionary α :=
  if contains key entries then entries else insert key value entries

/-- Of several pairs with one key the last one counts. -/
def ofPairs (pairs : List (String × α)) : Dictionary α :=
  pairs.foldl (fun entries pair => insert pair.1 pair.2 entries) []

/-- Every pair of `later` is bound, over earlier bindings. -/
def merge (entries later : Dictionary α) : Dictionary α :=
  later.foldl (fun entries pair => insert pair.1 pair.2 entries) entries

/-- Replaces the value at `key` by `change` of it, `absent` standing for no value. -/
def modify (key : String) (absent : α) (change : α → α) (entries : Dictionary α) : Dictionary α :=
  insert key (change ((find? key entries).getD absent)) entries

def keys (entries : Dictionary α) : List String :=
  entries.map Prod.fst

@[simp] theorem find?_insert_self (key : String) (value : α) (entries : Dictionary α) :
    find? key (insert key value entries) = some value := by
  induction entries with
  | nil => simp [insert, find?]
  | cons entry rest ih =>
      simp only [insert]
      split
      · simp [find?]
      · split
        · simp [find?]
        · simp_all [find?]

theorem find?_insert_of_ne {key other : String} (different : other ≠ key) (value : α)
    (entries : Dictionary α) :
    find? other (insert key value entries) = find? other entries := by
  induction entries with
  | nil => simp [insert, find?, Ne.symm different]
  | cons entry rest ih =>
      simp only [insert]
      split
      · rename_i same
        simp [find?, same, Ne.symm different]
      · split
        · simp [find?, Ne.symm different]
        · simp [find?, ih]

end Dictionary

end SwitchShell
