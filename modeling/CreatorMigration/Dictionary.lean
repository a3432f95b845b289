/-! # Dictionaries

A `Dictionary` maps texts to values and lists its entries in the order of their keys, each key once.
The order is that of the code points of the keys.
-/

namespace CreatorMigration

abbrev Dictionary (α : Type) := List (String × α)

namespace Dictionary

variable {α : Type}

/-- Adds an entry, or replaces the value of its key. -/
def insert (key : String) (value : α) : Dictionary α → Dictionary α
  | [] => [(key, value)]
  | (other, kept) :: rest =>
      match compare key other with
      | .lt => (key, value) :: (other, kept) :: rest
      | .eq => (key, value) :: rest
      | .gt => (other, kept) :: insert key value rest

/-- Later entries win over earlier ones of the same key. -/
def ofEntries (entries : List (String × α)) : Dictionary α :=
  entries.foldl (fun dictionary entry => insert entry.1 entry.2 dictionary) []

def find? (key : String) (dictionary : Dictionary α) : Option α := dictionary.lookup key

/-- The entries of both, those of `overlay` winning. -/
def extend (base overlay : Dictionary α) : Dictionary α :=
  overlay.foldl (fun dictionary entry => insert entry.1 entry.2 dictionary) base

end Dictionary

end CreatorMigration
