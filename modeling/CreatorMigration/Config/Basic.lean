import CreatorMigration.Dictionary
import CreatorMigration.Path.Basic

/-! # Configuration

Everything that a project may call by another name: how its files are found, which suffixes name the
units of a store, what the creator functions are called and where library symbols come from.

* `ProjectLayout` says which files are units and what the aliases of specifiers stand for.
* `ImportTable` maps a library symbol to the module it is imported from.
* `Config` holds all sections; every field has a default.
-/

namespace CreatorMigration

/-! ## Files -/

/-- How a project is walked and how aliased specifiers are read. -/
structure ProjectLayout where
  /-- Beginnings of specifiers, with the directories that they stand for. -/
  pathAliases : Dictionary Path := []
  ignored : List String := ["node_modules", "dist", "coverage"]
  extensions : List String := ["ts"]
deriving Inhabited

namespace ProjectLayout

def addAlias (layout : ProjectLayout) (lead : String) (directory : Path) : ProjectLayout :=
  { layout with pathAliases := layout.pathAliases.insert lead directory }

def ignore (layout : ProjectLayout) (directory : String) : ProjectLayout :=
  { layout with ignored := layout.ignored ++ [directory] }

/-- Hidden directories are always left out. -/
def isIgnored (layout : ProjectLayout) (name : String) : Bool :=
  Text.hasStart "." name || layout.ignored.contains name

/-- Declaration files are never units. -/
def isUnitFile (layout : ProjectLayout) (name : String) : Bool :=
  !Text.hasEnd ".d.ts" name &&
    layout.extensions.any fun extension =>
      match Text.dropEnd? extension name with
      | some stem => Text.hasEnd "." stem
      | none => false

end ProjectLayout

/-! ## Names -/

/-- The names by which the parts of a store that is still to be migrated are recognised. -/
structure Naming where
  actionsSuffix : String := ".actions.ts"
  reducerSuffix : String := ".reducer.ts"
  effectsSuffix : String := ".effects.ts"
  storeMarker : String := "/store/"
  reducerFunctionSuffix : String := "Reducer"
  aggregateAliasPattern : String := "Actions?$"
  discriminatorField : String := "type"
deriving DecidableEq, Inhabited

/-- The names of the creator functions. -/
structure CreatorNames where
  createAction : String := "createAction"
  props : String := "props"
  createReducer : String := "createReducer"
  on : String := "on"
  createEffect : String := "createEffect"
  eventType : String := "Action"
  tableName : String := "reducer"
deriving DecidableEq, Inhabited

/-- The names of the operators of effect pipelines. -/
structure PipelineNames where
  decorator : String := "Effect"
  combinator : String := "pipe"
  filterOperator : String := "ofType"
  bootstrapMarkers : List String := ["ROOT_EFFECTS_INIT", "UPDATE"]
  branchOperator : String := "iif"
  branchType : String := "ApplyConfiguration"
  renames : Dictionary String := [("mapErrorToAction", "mapErrorToActionV8")]
deriving DecidableEq, Inhabited

/-! ## Library imports -/

abbrev ImportTable := Dictionary String

/-- Where the creator functions live unless the configuration says otherwise. -/
def ImportTable.standard : ImportTable := Dictionary.ofEntries
  [ ("createAction", "@ngrx/store"), ("props", "@ngrx/store"), ("createReducer", "@ngrx/store"),
    ("on", "@ngrx/store"), ("Action", "@ngrx/store"), ("createEffect", "@ngrx/effects"),
    ("mapErrorToActionV8", "ish-core/utils/operators") ]

/-! ## All sections -/

structure Config where
  layout : ProjectLayout := {}
  naming : Naming := {}
  creators : CreatorNames := {}
  pipeline : PipelineNames := {}
  library : ImportTable := ImportTable.standard
deriving Inhabited

namespace Config

/-- The name under which a configuration is looked up in the root of a project. -/
def fileName : String := "store-morph.toml"

def isBootstrapMarker (config : Config) (name : String) : Bool :=
  config.pipeline.bootstrapMarkers.contains name

def withLayout (config : Config) (layout : ProjectLayout) : Config := { config with layout }

def addPathAlias (config : Config) (lead : String) (directory : Path) : Config :=
  { config with layout := config.layout.addAlias lead directory }

def addRename (config : Config) (operator replacement : String) : Config :=
  { config with
    pipeline := { config.pipeline with
      renames := config.pipeline.renames.insert operator replacement } }

def addLibraryImport (config : Config) (name module : String) : Config :=
  { config with library := config.library.insert name module }

def withStoreMarker (config : Config) (marker : String) : Config :=
  { config with naming := { config.naming with storeMarker := marker } }

/-- Equality of configurations; directories are compared by their components. -/
def sameAs (left right : Config) : Bool :=
  left.layout.pathAliases == right.layout.pathAliases &&
    left.layout.ignored == right.layout.ignored &&
    left.layout.extensions == right.layout.extensions &&
    left.naming == right.naming && left.creators == right.creators &&
    left.pipeline == right.pipeline && left.library == right.library

instance : BEq Config := ⟨sameAs⟩

end Config

end CreatorMigration
