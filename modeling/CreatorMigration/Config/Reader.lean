import CreatorMigration.Config.Basic
import CreatorMigration.Config.Toml
import CreatorMigration.Pattern.Reader

/-! # Reading configurations

A configuration file is a TOML document with a table per section. A section or field that is missing
keeps its default, one that is unknown is passed over, and one of another type than the field's is
an error. A section may also be written as a list of its fields in order.

* `Config.ofText` reads a file and checks the pattern of aggregate aliases.
-/

namespace CreatorMigration

/-- Why a configuration cannot be used. -/
inductive ConfigError where
  /-- The file cannot be read; the reason is that of the file system. -/
  | unreadable (path : Path) (reason : String)
  | invalidDocument
  | invalidPattern (pattern : String)

/-! ## Sections -/

/-- A field of a section: its name, and how its value changes the section. -/
abbrev Field (σ : Type) := String × (ConfigValue → Option (σ → σ))

namespace Field

variable {σ : Type}

def text (name : String) (set : String → σ → σ) : Field σ :=
  (name, fun value => value.text?.map set)

def texts (name : String) (set : List String → σ → σ) : Field σ :=
  (name, fun value => value.texts?.map set)

def textTable (name : String) (set : Dictionary String → σ → σ) : Field σ :=
  (name, fun value => value.textTable?.map set)

/-- Sets the fields that a table names. -/
def readTable (entries : List (String × ConfigValue)) : List (Field σ) → σ → Option σ
  | [], state => some state
  | (name, read) :: fields, state =>
      match entries.lookup name with
      | none => readTable entries fields state
      | some value => (read value).bind fun change => readTable entries fields (change state)

/-- Sets the leading fields to the items of a list. -/
def readList : List ConfigValue → List (Field σ) → σ → Option σ
  | value :: values, (_, read) :: fields, state =>
      (read value).bind fun change => readList values fields (change state)
  | _, _, state => some state

def readSection (fields : List (Field σ)) (default : σ) : ConfigValue → Option σ
  | .table entries => readTable entries fields default
  | .list values => readList values fields default
  | _ => none

/-- A section within a larger one. -/
def nested {τ : Type} (name : String) (fields : List (Field τ)) (default : τ)
    (set : τ → σ → σ) : Field σ :=
  (name, fun value => (readSection fields default value).map set)

end Field

def ProjectLayout.fields : List (Field ProjectLayout) :=
  [ .textTable "path_aliases" fun aliases layout =>
      { layout with pathAliases := aliases.map fun (lead, directory) => (lead, ⟨directory⟩) },
    .texts "ignore" fun ignored layout => { layout with ignored },
    .texts "extensions" fun extensions layout => { layout with extensions } ]

def Naming.fields : List (Field Naming) :=
  [ .text "actions_suffix" fun value naming => { naming with actionsSuffix := value },
    .text "reducer_suffix" fun value naming => { naming with reducerSuffix := value },
    .text "effects_suffix" fun value naming => { naming with effectsSuffix := value },
    .text "store_marker" fun value naming => { naming with storeMarker := value },
    .text "reducer_function_suffix" fun value naming =>
      { naming with reducerFunctionSuffix := value },
    .text "aggregate_alias_pattern" fun value naming =>
      { naming with aggregateAliasPattern := value },
    .text "discriminator_field" fun value naming => { naming with discriminatorField := value } ]

def CreatorNames.fields : List (Field CreatorNames) :=
  [ .text "create_action" fun value creators => { creators with createAction := value },
    .text "props" fun value creators => { creators with props := value },
    .text "create_reducer" fun value creators => { creators with createReducer := value },
    .text "on" fun value creators => { creators with on := value },
    .text "create_effect" fun value creators => { creators with createEffect := value },
    .text "event_type" fun value creators => { creators with eventType := value },
    .text "table_name" fun value creators => { creators with tableName := value } ]

def PipelineNames.fields : List (Field PipelineNames) :=
  [ .text "annotation" fun value pipeline => { pipeline with decorator := value },
    .text "combinator" fun value pipeline => { pipeline with combinator := value },
    .text "filter_operator" fun value pipeline => { pipeline with filterOperator := value },
    .texts "bootstrap_markers" fun value pipeline => { pipeline with bootstrapMarkers := value },
    .text "branch_operator" fun value pipeline => { pipeline with branchOperator := value },
    .text "branch_type" fun value pipeline => { pipeline with branchType := value },
    .textTable "renames" fun value pipeline => { pipeline with renames := value } ]

/-- The library of a file extends the standard one. -/
def ImportTable.fields : List (Field ImportTable) :=
  [ .textTable "library" fun library _ => ImportTable.standard.extend library ]

def Config.fields : List (Field Config) :=
  [ .nested "project" ProjectLayout.fields {} fun layout config => { config with layout },
    .nested "naming" Naming.fields {} fun naming config => { config with naming },
    .nested "target" CreatorNames.fields {} fun creators config => { config with creators },
    .nested "pipeline" PipelineNames.fields {} fun pipeline config => { config with pipeline },
    .nested "imports" ImportTable.fields ImportTable.standard fun library config =>
      { config with library } ]

def ProjectLayout.ofValue? (value : ConfigValue) : Option ProjectLayout :=
  Field.readSection ProjectLayout.fields {} value

namespace Config

/-- The pattern that the aggregate alias of a store is recognised by. -/
def aliasPattern? (config : Config) : Option Pattern :=
  Pattern.ofText? config.naming.aggregateAliasPattern

/-! ## Files -/

def ofText (text : String) : Except ConfigError Config :=
  match (Toml.read? text).bind (Field.readSection Config.fields {}) with
  | none => .error .invalidDocument
  | some config =>
      match config.aliasPattern? with
      | some _ => .ok config
      | none => .error (.invalidPattern config.naming.aggregateAliasPattern)

end Config

end CreatorMigration
