import CreatorMigration.Dictionary

/-! # Configuration values

What a configuration file says before its sections are read: texts, lists and tables. Numbers, dates
and other scalars are told apart only from these, since no section holds any.
-/

namespace CreatorMigration

inductive ConfigValue where
  | text (value : String)
  | otherScalar
  | list (items : List ConfigValue)
  | table (entries : List (String × ConfigValue))
deriving Inhabited

namespace ConfigValue

def text? : ConfigValue → Option String
  | text value => some value
  | _ => none

def texts? : ConfigValue → Option (List String)
  | list items => items.mapM text?
  | _ => none

/-- A table of texts as a dictionary. -/
def textTable? : ConfigValue → Option (Dictionary String)
  | table entries =>
      (entries.mapM fun (entry : String × ConfigValue) =>
        entry.2.text?.map fun value => (entry.1, value)).map Dictionary.ofEntries
  | _ => none

end ConfigValue

end CreatorMigration
