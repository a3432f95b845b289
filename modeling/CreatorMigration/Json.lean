import CreatorMigration.Text.Basic

/-! # JSON

The values of a JSON document and their text with one entry a line, indented by two spaces a level.
Empty lists and objects stay on one line.
-/

namespace CreatorMigration

inductive Json where
  | null
  | bool (value : Bool)
  | number (value : Nat)
  | text (value : String)
  | list (items : List Json)
  | object (fields : List (String × Json))

namespace Json

/-! ## Texts -/

def hexDigit (value : Nat) : Char := "0123456789abcdef".toList.getD value '0'

/-- Control characters, the quote and the backslash are escaped; all others stand for themselves. -/
def escape (c : Char) : List Char :=
  match c with
  | '\x22' => ['\\', '\x22']
  | '\\' => ['\\', '\\']
  | '\n' => ['\\', 'n']
  | '\r' => ['\\', 'r']
  | '\t' => ['\\', 't']
  | '\x08' => ['\\', 'b']
  | '\x0c' => ['\\', 'f']
  | c =>
      if c.toNat < 0x20 then
        ['\\', 'u', '0', '0', hexDigit (c.toNat / 16), hexDigit (c.toNat % 16)]
      else [c]

def quote (text : String) : String :=
  "\x22" ++ String.ofList (text.toList.flatMap escape) ++ "\x22"

/-! ## Documents -/

def indent (depth : Nat) : String := String.ofList (List.replicate (2 * depth) ' ')

/-- Entries between brackets, each on a line of its own. -/
def enclose (opening closing : String) (depth : Nat) : List String → String
  | [] => opening ++ closing
  | entries =>
      opening ++ "\n" ++ indent (depth + 1) ++
        Text.join (",\n" ++ indent (depth + 1)) entries ++ "\n" ++ indent depth ++ closing

mutual

def renderAt (depth : Nat) : Json → String
  | null => "null"
  | bool value => if value then "true" else "false"
  | number value => toString value
  | text value => quote value
  | list items => enclose "[" "]" depth (renderItems (depth + 1) items)
  | object fields => enclose "\x7b" "\x7d" depth (renderFields (depth + 1) fields)

def renderItems (depth : Nat) : List Json → List String
  | [] => []
  | item :: rest => renderAt depth item :: renderItems depth rest

def renderFields (depth : Nat) : List (String × Json) → List String
  | [] => []
  | (name, value) :: rest =>
      (quote name ++ ": " ++ renderAt depth value) :: renderFields depth rest

end

def render (json : Json) : String := renderAt 0 json

end Json

end CreatorMigration
