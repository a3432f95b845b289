import CreatorMigration.Edit
import CreatorMigration.Path.Basic
import CreatorMigration.Tree.Parse
import CreatorMigration.Tree.Query

/-! # Units

A `SourceUnit` is one file of a project: its path, its current text with the tree of that text, and
what it was when it was loaded and when it was last written.

* `SourceUnit.apply` applies a batch of edits and reads the tree anew.
* A failed batch leaves the unit as it was.
-/

namespace CreatorMigration

structure SourceUnit where
  path : Path
  text : String
  tree : Node
  /-- The text as it was loaded. -/
  loaded : String
  /-- The text as it was last written. -/
  saved : String
  tree_eq : tree = Tree.parse text

namespace SourceUnit

def ofText (path : Path) (text : String) : SourceUnit :=
  { path, text, tree := Tree.parse text, loaded := text, saved := text, tree_eq := rfl }

instance : Inhabited SourceUnit := ⟨ofText ⟨""⟩ ""⟩

/-! ## Changing the text -/

def withText (unit : SourceUnit) (text : String) : SourceUnit :=
  { unit with text, tree := Tree.parse text, tree_eq := rfl }

/-- Applies a batch; an empty one leaves the unit alone. -/
def apply (unit : SourceUnit) (edits : List Edit) : Except Edit.Fault SourceUnit :=
  if edits.isEmpty then .ok unit
  else (Edit.applyAll unit.text edits).map unit.withText

def isChanged (unit : SourceUnit) : Bool := unit.text != unit.loaded

def isUnsaved (unit : SourceUnit) : Bool := unit.text != unit.saved

def markSaved (unit : SourceUnit) : SourceUnit := { unit with saved := unit.text }

/-! ## Texts and positions -/

def fileName (unit : SourceUnit) : String := unit.path.fileName?.getD ""

def slice (unit : SourceUnit) (span : Span) : String := Text.slice unit.text span

def textOf (unit : SourceUnit) (node : Node) : String := node.textIn unit.text

def lineOf (unit : SourceUnit) (offset : Nat) : Nat := Text.lineOf unit.text offset

/-- The named nodes and comments at the top level, in their surroundings. -/
def topLevel (unit : SourceUnit) : List Place :=
  unit.tree.childPlaces.filter fun place => place.node.isNamed && !place.node.isComment

end SourceUnit

end CreatorMigration
