import CreatorMigration.Edit
import CreatorMigration.Path.Basic

/-! # Project errors

What can go wrong with the units of a project and with the files behind them.
-/

namespace CreatorMigration

inductive ProjectError where
  /-- A file cannot be read or written; the reason is that of the file system. -/
  | fileFailure (path : Path) (reason : String)
  /-- The files below a root cannot be listed. -/
  | walkFailure (root : Path) (reason : String)
  | unknownUnit (path : Path)
  /-- A batch of edits for a unit cannot be applied. -/
  | badEdits (unit : Path) (fault : Edit.Fault)

namespace ProjectError

def faultMessage (unit : Path) : Edit.Fault → String
  | .outOfBounds span size =>
      "edit " ++ span.render ++ " is out of bounds for " ++ unit.text ++ " (" ++ toString size ++
        " bytes)"
  | .overlapping first second =>
      "overlapping edits in " ++ unit.text ++ ": " ++ first.render ++ " and " ++ second.render

def message : ProjectError → String
  | fileFailure path reason => "io error on " ++ path.text ++ ": " ++ reason
  | walkFailure root reason => "cannot walk " ++ root.text ++ ": " ++ reason
  | unknownUnit path => "unknown unit: " ++ path.text
  | badEdits unit fault => faultMessage unit fault

end ProjectError

end CreatorMigration
