import CreatorMigration.Ordered

/-! # Sets of names

A set of names is a list in the order of code points in which each name stands once.
-/

namespace CreatorMigration.Text

def nameSet (names : List String) : List String := Ordered.ofList compare names

@[simp]
theorem mem_nameSet {names : List String} {name : String} : name ∈ nameSet names ↔ name ∈ names :=
  Ordered.mem_ofList compare names

end CreatorMigration.Text
