import CreatorMigration.Config.Basic
import CreatorMigration.Json

/-! # Configurations as documents

All sections of a configuration with their fields, by the names that they have in its file.
-/

namespace CreatorMigration

def Json.texts (texts : List String) : Json := .list (texts.map .text)

def Json.textTable (entries : Dictionary String) : Json :=
  .object (entries.map fun (key, value) => (key, .text value))

def ProjectLayout.toJson (layout : ProjectLayout) : Json :=
  .object
    [ ("path_aliases",
        .textTable (layout.pathAliases.map fun (lead, directory) => (lead, directory.text))),
      ("ignore", .texts layout.ignored), ("extensions", .texts layout.extensions) ]

def Naming.toJson (naming : Naming) : Json :=
  .object
    [ ("actions_suffix", .text naming.actionsSuffix),
      ("reducer_suffix", .text naming.reducerSuffix),
      ("effects_suffix", .text naming.effectsSuffix), ("store_marker", .text naming.storeMarker),
      ("reducer_function_suffix", .text naming.reducerFunctionSuffix),
      ("aggregate_alias_pattern", .text naming.aggregateAliasPattern),
      ("discriminator_field", .text naming.discriminatorField) ]

def CreatorNames.toJson (creators : CreatorNames) : Json :=
  .object
    [ ("create_action", .text creators.createAction), ("props", .text creators.props),
      ("create_reducer", .text creators.createReducer), ("on", .text creators.on),
      ("create_effect", .text creators.createEffect), ("event_type", .text creators.eventType),
      ("table_name", .text creators.tableName) ]

def PipelineNames.toJson (pipeline : PipelineNames) : Json :=
  .object
    [ ("annotation", .text pipeline.decorator), ("combinator", .text pipeline.combinator),
      ("filter_operator", .text pipeline.filterOperator),
      ("bootstrap_markers", .texts pipeline.bootstrapMarkers),
      ("branch_operator", .text pipeline.branchOperator),
      ("branch_type", .text pipeline.branchType), ("renames", .textTable pipeline.renames) ]

def Config.toJson (config : Config) : Json :=
  .object
    [ ("project", config.layout.toJson), ("naming", config.naming.toJson),
      ("target", config.creators.toJson), ("pipeline", config.pipeline.toJson),
      ("imports", .object [("library", .textTable config.library)]) ]

end CreatorMigration
