import CreatorMigration.Path.Basic

/-! # Arguments

The arguments of the command line, read from left to right into a `Command`.

* An option takes the next argument as its value unless that starts with a dash; `--name=value`
  holds its value itself. No option may be given twice.
* Behind `--` every argument is a store.
* Of several faults the first one met is reported. A value is only looked at when the next option
  is met or the arguments end, so an option that is not known is reported before it.
-/

namespace CreatorMigration

/-! ## Commands -/

/-- Where the project and its configuration are. -/
structure ProjectSource where
  root : Path := ⟨"."⟩
  config : Option Path := none
deriving Inhabited

structure MigrateOptions where
  stores : List Path := []
  dryRun : Bool := false
  json : Bool := false
  skipPreflight : Bool := false
deriving Inhabited

inductive Command where
  | check (source : ProjectSource)
  | migrate (source : ProjectSource) (options : MigrateOptions)
deriving Inhabited

/-! ## Options -/

/-- An option that takes a value. -/
inductive ValueOption where
  | project
  | config
deriving DecidableEq

/-- An option that is given or not. -/
inductive Switch where
  | dryRun
  | json
  | skipPreflight
deriving DecidableEq

namespace ValueOption

def name : ValueOption → String
  | project => "project"
  | config => "config"

def usage : ValueOption → String
  | project => "--project <DIR>"
  | config => "--config <FILE>"

def all : List ValueOption := [project, config]

end ValueOption

namespace Switch

def name : Switch → String
  | dryRun => "dry-run"
  | json => "json"
  | skipPreflight => "skip-preflight"

def all : List Switch := [dryRun, json, skipPreflight]

end Switch

/-- The commands by name. -/
inductive CommandName where
  | check
  | migrate
deriving DecidableEq

namespace CommandName

def name : CommandName → String
  | check => "check"
  | migrate => "migrate"

def ofName? (text : String) : Option CommandName :=
  [check, migrate].find? fun command => command.name == text

/-- The switches that a command knows; only `migrate` has any, and it alone takes stores. -/
def switches : CommandName → List Switch
  | check => []
  | migrate => Switch.all

def takesStores (command : CommandName) : Bool := decide (command = migrate)

end CommandName

/-! ## What is not a command -/

inductive UsageError where
  | unknownCommand (name : String)
  | unexpectedArgument (argument : String)
  | unexpectedValue (value option : String)
  | missingValue (option : String)
  | repeated (option : String)

def UsageError.message : UsageError → String
  | unknownCommand name => "unrecognized subcommand " ++ "\x27" ++ name ++ "\x27"
  | unexpectedArgument argument => "unexpected argument \x27" ++ argument ++ "\x27 found"
  | unexpectedValue value option =>
      "unexpected value \x27" ++ value ++ "\x27 for \x27" ++ option ++
        "\x27 found; no more were expected"
  | missingValue option =>
      "a value is required for \x27" ++ option ++ "\x27 but none was supplied"
  | repeated option => "the argument \x27" ++ option ++ "\x27 cannot be used multiple times"

/-- What ends the reading of arguments before there is a command. -/
inductive Stop where
  | help (command : Option CommandName)
  | version
  /-- No command is given. -/
  | missingCommand
  | invalid (command : Option CommandName) (error : UsageError)

/-! ## Shapes of arguments -/

/-- An argument by how it is written. -/
inductive Argument where
  /-- `--` -/
  | separator
  /-- `--name` or `--name=value` -/
  | long (name : String) (value : Option String)
  /-- `-x` and what follows -/
  | short (letter : Char) (rest : List Char)
  | word (text : String)

namespace Argument

def ofLong (chars : List Char) : Argument :=
  let name := String.ofList (chars.takeWhile (· != '='))
  match chars.dropWhile (· != '=') with
  | [] => long name none
  | _ :: value => long name (some (String.ofList value))

def ofText (text : String) : Argument :=
  match text.toList with
  | ['-', '-'] => separator
  | '-' :: '-' :: rest => ofLong rest
  | '-' :: letter :: rest => short letter rest
  | _ => word text

end Argument

/-! ## Options of a command -/

/-- What has been given but not looked at yet. -/
inductive Pending where
  | nothing
  /-- An option with or still without its value. -/
  | value (option : ValueOption) (given : Option String)
  | stores (given : List String)

/-- What has been read of the arguments of a command. -/
structure ArgumentState where
  project : Option String := none
  config : Option String := none
  switches : List Switch := []
  stores : List String := []
  pending : Pending := .nothing

namespace ArgumentState

def storesUsage : String := "[STORE_DIR]..."

def value? (state : ArgumentState) : ValueOption → Option String
  | .project => state.project
  | .config => state.config

/-- Takes the value of an option, which may be given once and may not be empty. -/
def setValue (state : ArgumentState) (option : ValueOption) (value : String) :
    Except UsageError ArgumentState :=
  if (state.value? option).isSome then .error (.repeated option.usage)
  else if value = "" then .error (.missingValue option.usage)
  else
    match option with
    | .project => .ok { state with project := some value }
    | .config => .ok { state with config := some value }

/-- Looks at what is pending. -/
def settle (state : ArgumentState) : Except UsageError ArgumentState :=
  let settled := { state with pending := .nothing }
  match state.pending with
  | .nothing => .ok settled
  | .value option none => .error (.missingValue option.usage)
  | .value option (some value) => settled.setValue option value
  | .stores given =>
      if given.contains "" then .error (.missingValue storesUsage)
      else .ok { settled with stores := settled.stores ++ given }

def addStore (state : ArgumentState) (store : String) : Except UsageError ArgumentState :=
  match state.pending with
  | .stores given => .ok { state with pending := .stores (given ++ [store]) }
  | _ => do
      let state ← state.settle
      return { state with pending := .stores [store] }

def addSwitch (state : ArgumentState) (switch : Switch) : Except UsageError ArgumentState := do
  let state ← state.settle
  if state.switches.contains switch then throw (.repeated ("--" ++ switch.name))
  return { state with switches := switch :: state.switches }

def startValue (state : ArgumentState) (option : ValueOption) (value : Option String) :
    Except UsageError ArgumentState := do
  let state ← state.settle
  match value with
  | none => return { state with pending := .value option none }
  | some value => state.setValue option value

/-- A word is the value of the option in front of it, or else a store. -/
def addWord (command : CommandName) (state : ArgumentState) (trailing : Bool) (text : String) :
    Except UsageError ArgumentState :=
  match state.pending, trailing with
  | .value option none, false => .ok { state with pending := .value option (some text) }
  | _, _ => if command.takesStores then state.addStore text else .error (.unexpectedArgument text)

def command (name : CommandName) (state : ArgumentState) : Command :=
  let source : ProjectSource :=
    { root := ⟨state.project.getD "."⟩, config := state.config.map Path.mk }
  match name with
  | .check => .check source
  | .migrate =>
      .migrate source
        { stores := state.stores.map Path.mk
          dryRun := state.switches.contains .dryRun
          json := state.switches.contains .json
          skipPreflight := state.switches.contains .skipPreflight }

end ArgumentState

namespace CommandName

def invalid {α : Type} (command : CommandName) (result : Except UsageError α) : Except Stop α :=
  result.mapError (Stop.invalid (some command))

/-- Asking for help ends the reading once what is pending is in order. -/
def askHelp (command : CommandName) (state : ArgumentState) : Except Stop ArgumentState := do
  let _ ← command.invalid state.settle
  throw (.help (some command))

def readLong (command : CommandName) (state : ArgumentState) (name : String)
    (value : Option String) : Except Stop ArgumentState :=
  match ValueOption.all.find? (·.name == name), command.switches.find? (·.name == name), value with
  | some option, _, _ => command.invalid (state.startValue option value)
  | none, some switch, none => command.invalid (state.addSwitch switch)
  | none, some switch, some value =>
      .error (.invalid (some command) (.unexpectedValue value ("--" ++ switch.name)))
  | none, none, _ =>
      match name, value with
      | "help", none => command.askHelp state
      | "help", some value => .error (.invalid (some command) (.unexpectedValue value "--help"))
      | _, _ => .error (.invalid (some command) (.unexpectedArgument ("--" ++ name)))

def readShort (command : CommandName) (state : ArgumentState) (letter : Char) :
    Except Stop ArgumentState :=
  if letter = 'h' then command.askHelp state
  else .error (.invalid (some command) (.unexpectedArgument (String.ofList ['-', letter])))

/-- Reads the arguments behind the name of a command. -/
def readArguments (command : CommandName) (trailing : Bool) :
    List String → ArgumentState → Except Stop ArgumentState
  | [], state => command.invalid state.settle
  | text :: rest, state =>
      match trailing, Argument.ofText text with
      | false, .separator => command.readArguments true rest state
      | false, .long name value => do
          command.readArguments false rest (← command.readLong state name value)
      | false, .short letter _ => do
          command.readArguments false rest (← command.readShort state letter)
      | _, _ => do
          let state ← command.invalid (state.addWord command trailing text)
          command.readArguments trailing rest state

end CommandName

namespace Command

/-- `help`, alone or with the name of a command behind it. -/
def readHelp : List String → Stop
  | [] => .help none
  | text :: _ =>
      match CommandName.ofName? text with
      | some name => .help (some name)
      | none => if text = "help" then .help none else .invalid none (.unknownCommand text)

/-- A word in the place of a command. -/
def readName (text : String) (rest : List String) : Except Stop Command :=
  match CommandName.ofName? text with
  | some name => (name.readArguments false rest {}).map (ArgumentState.command name)
  | none =>
      if text = "help" then .error (readHelp rest)
      else .error (.invalid none (.unknownCommand text))

/-- A word behind `--`, where there is no place for a command. -/
def readTrailing (text : String) : UsageError :=
  if text = "help" ∨ (CommandName.ofName? text).isSome then .unexpectedArgument text
  else .unknownCommand text

/-- An option in front of any command. -/
def readGlobal : Argument → Stop
  | .long "help" none => .help none
  | .long "version" none => .version
  | .long "help" (some value) => .invalid none (.unexpectedValue value "--help")
  | .long "version" (some value) => .invalid none (.unexpectedValue value "--version")
  | .long name _ => .invalid none (.unexpectedArgument ("--" ++ name))
  | .short 'h' _ => .help none
  | .short 'V' _ => .version
  | .short letter _ => .invalid none (.unexpectedArgument (String.ofList ['-', letter]))
  | .separator | .word _ => .missingCommand

def ofArguments : List String → Except Stop Command
  | [] => .error .missingCommand
  | text :: rest =>
      match Argument.ofText text with
      | .separator =>
          match rest with
          | [] => .error .missingCommand
          | text :: _ => .error (.invalid none (readTrailing text))
      | .word text => readName text rest
      | option => .error (readGlobal option)

end Command

end CreatorMigration
