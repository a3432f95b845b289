import CreatorMigration.Text.Basic
import CreatorMigration.Text.Case

/-! # Names of factories

An action class and the factory that replaces it go by one name, the factory's in lower camel case.

* `unqualified` names a dotted reference by its last part.
* `factoryName` is the factory of a class or of a member of the enum of action types.
* `typeMadeBy` is the type of the actions that some factories make.
-/

namespace CreatorMigration

/-- The trimmed text behind the last dot. -/
def unqualified (text : String) : String := Text.trim (Text.afterLast '.' text)

/-- Both `XActionTypes.LoadFail` and `LoadFail` are made by `loadFail`. -/
def factoryName (label : String) : String := Text.decapitalize (unqualified label)

def typeMadeBy (factories : List String) : String :=
  "ReturnType<" ++ Text.join " | " (factories.map ("typeof " ++ ·)) ++ ">"

end CreatorMigration
