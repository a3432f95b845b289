import CreatorMigration.Path.Basic

/-! # Relative specifiers

A unit imports another one by a specifier that walks from its own directory to the other unit.

* `Path.relativeSpecifier` writes that walk; an `index` unit is named by its directory.
* `Path.sharedDepth` measures how near two paths are.
-/

namespace CreatorMigration.Path

def sharedCount : List Component → List Component → Nat
  | left :: lefts, right :: rights => if left = right then sharedCount lefts rights + 1 else 0
  | _, _ => 0

/-- The number of leading components that two paths share. -/
def sharedDepth (left right : Path) : Nat := sharedCount left.components right.components

/-- The components that name a unit in a specifier. -/
def specifierTarget (target : Path) : List Component :=
  let bare := target.withoutExtension
  if bare.fileName? = some "index" then bare.components.dropLast else bare.components

def relativeSpecifier (importer target : Path) : String :=
  let here := (importer.parent?.map components).getD []
  let there := specifierTarget target
  let shared := sharedCount here there
  let steps := List.replicate (here.length - shared) ".." ++ (there.drop shared).map Component.text
  let joined := Text.join "/" steps
  if Text.hasStart ".." joined then joined
  else if joined = "" then "."
  else "./" ++ joined

end CreatorMigration.Path
