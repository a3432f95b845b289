import CreatorMigration.Project.Imports

/-! # Replacing references

`replaceReferences` changes every use of a declared name outside its unit and outside of imports by
a rule that gives an edit for a use or leaves it alone.

* Edits that would change nothing are dropped; of edits that overlap the outermost stays, and what
  it covers has its turn in the next round.
* Rounds end when no use gives an edit, and at the latest after `roundLimit` rounds.
* The imports of every unit that was changed are brought in step in the end.
-/

namespace CreatorMigration

def roundLimit : Nat := 32

/-- The number of edits, and the units that they were applied to. -/
structure Replacements where
  count : Nat := 0
  units : List Path := []

def Replacements.merge (outcome other : Replacements) : Replacements :=
  { count := outcome.count + other.count
    units := Ordered.union Path.order outcome.units other.units }

/-- What is to be done at a use of a name. -/
abbrev ReplacementRule := SourceUnit → Place → Option Edit

namespace ReplacementRule

/-- The edits of a unit at the given uses. -/
def edits (rule : ReplacementRule) (unit : SourceUnit) (uses : List Span) : List Edit :=
  let proposed := uses.filterMap fun use => rule unit (unit.tree.nodeAt use)
  Edit.outermost (proposed.filter (Edit.changes unit.text))

end ReplacementRule

/-- A name to be count: where it is declared, and which units are left out. -/
structure ReplacementTarget where
  declaring : Path
  name : String
  skips : Path → Bool

namespace ReplacementTarget

def includes (target : ReplacementTarget) (reference : Reference) : Bool :=
  !reference.inImport && !(reference.unit == target.declaring) && !target.skips reference.unit

/-- The batches of one round, each with the path of its unit. -/
def batches (target : ReplacementTarget) (rule : ReplacementRule) (project : Project) :
    List (Path × List Edit) :=
  let uses := (project.references target.declaring target.name).filter target.includes
  (project.units.map fun unit =>
    (unit.path, rule.edits unit
      ((uses.filter fun use => use.unit == unit.path).map Reference.span))).filter
    fun batch => !batch.2.isEmpty

end ReplacementTarget

/-- Applies the batches in their order. -/
def applyBatches : List (Path × List Edit) → Update ProjectError Unit
  | [] => return ()
  | (path, edits) :: rest => do
      Update.apply path edits
      applyBatches rest

def editCount (batches : List (Path × List Edit)) : Nat :=
  batches.foldr (fun batch count => batch.2.length + count) 0

def replaceRound (target : ReplacementTarget) (rule : ReplacementRule) :
    Update ProjectError Replacements := do
  let batches := target.batches rule (← get)
  applyBatches batches
  return { count := editCount batches, units := batches.map Prod.fst }

/-- At most the given number of rounds. -/
def replaceRounds (target : ReplacementTarget) (rule : ReplacementRule) :
    Nat → Update ProjectError Replacements
  | 0 => return {}
  | rounds + 1 => do
      let round ← replaceRound target rule
      if round.count = 0 then return {}
      let rest ← replaceRounds target rule rounds
      return round.merge rest

def alignAll (table : ImportTable) : List Path → Update ProjectError Unit
  | [] => return ()
  | path :: rest => do
      let _ ← Project.alignImports table path
      alignAll table rest

def replaceReferences (target : ReplacementTarget) (table : ImportTable) (rule : ReplacementRule) :
    Update ProjectError Replacements := do
  let outcome ← replaceRounds target rule roundLimit
  alignAll table outcome.units
  return outcome

end CreatorMigration
