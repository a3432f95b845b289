import CreatorMigration.Config.Basic

/-! # Resolution of specifiers

A specifier names a unit from the point of view of another one.

* A specifier with a leading dot is read from the directory of the importing unit.
* Another one is tried under each alias that it starts with, in the order of the aliases.
* What is left names the only unit whose path ends with all its segments, at least two of them.
-/

namespace CreatorMigration.Resolution

/-- The files that a path without extension may stand for, in the order they are tried. -/
def candidates (base : Path) : List Path :=
  [⟨base.text ++ ".ts"⟩, base.under ⟨"index.ts"⟩, base]

def unitAt? (units : List Path) (base : Path) : Option Path :=
  (candidates base).find? fun candidate =>
    candidate.extension? == some "ts" && units.contains candidate

/-! ## Relative and aliased specifiers -/

def relativeBase (importer : Path) (specifier : String) : Path :=
  (((importer.parent?).getD ⟨""⟩).under ⟨specifier⟩).normalize

/-- The path that an alias gives to a specifier starting with it. -/
def aliasBase? (root : Path) (specifier : String) (entry : String × Path) : Option Path :=
  (Text.dropStart? entry.1 specifier).map fun rest =>
    ((root.under entry.2).under ⟨String.ofList (rest.toList.dropWhile (· == '/'))⟩).normalize

def unitAtAlias? (root : Path) (units : List Path) (specifier : String) :
    Dictionary Path → Option Path
  | [] => none
  | entry :: rest =>
      match (aliasBase? root specifier entry).bind (unitAt? units) with
      | some found => some found
      | none => unitAtAlias? root units specifier rest

/-! ## Specifiers by their last segments -/

/-- The segments of a specifier that name something. -/
def segments (specifier : String) : List String :=
  (Text.splitOn '/' specifier).filter fun segment =>
    segment != "" && segment != "." && segment != ".."

/-- The segments by which a unit can be named; an `index` unit goes by its directory. -/
def unitSegments (unit : Path) : List String :=
  let parts := unit.withoutExtension.components.map Component.text
  if parts.getLast? = some "index" then parts.dropLast else parts

def endsWithSegments (wanted : List String) (unit : Path) : Bool :=
  wanted.isSuffixOf (unitSegments unit)

def unitBySegments? (units : List Path) (specifier : String) : Option Path :=
  let wanted := segments specifier
  if wanted.length < 2 then none
  else
    match units.filter (endsWithSegments wanted) with
    | [only] => some only
    | _ => none

/-! ## All specifiers -/

def resolve (layout : ProjectLayout) (root : Path) (units : List Path) (importer : Path)
    (specifier : String) : Option Path :=
  if Text.hasStart "." specifier then unitAt? units (relativeBase importer specifier)
  else
    (unitAtAlias? root units specifier layout.pathAliases).orElse fun _ =>
      unitBySegments? units specifier

end CreatorMigration.Resolution
