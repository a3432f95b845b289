import CreatorMigration.Tree.Grammar.Modules
import CreatorMigration.Tree.Token.Lexer

/-! # Trees of texts

`Tree.parse?` reads the tree of a unit, or fails for a text that is no TypeScript unit.

* `Grammar.parse` ties the family of parsers into one: each nested construct takes one unit of fuel,
  of which there is enough for every token to be nested several times.
-/

namespace CreatorMigration

namespace Grammar

/-- The parser of a goal, for constructs nested at most `fuel` deep. -/
def parse : Nat → Goal → Parser Shape
  | 0, _ => failure
  | fuel + 1, goal =>
      match goal with
      | .statement => statement (parse fuel)
      | .expression beforeColon => expression (parse fuel) beforeColon
      | .sequence => sequence (parse fuel)
      | .operand => operand (parse fuel) (classExpression (parse fuel))
      | .callee => callee (parse fuel) (classExpression (parse fuel))
      | .type => type (parse fuel)
      | .typeOperand => typeOperand (parse fuel)
      | .pattern => pattern (parse fuel)

/-- The statements of a unit up to its end. -/
def unitParts (fuel : Nat) : Parser (List Shape) := do
  let hashBang ← optionally (single (ofKind .hashBang .hashBangLine))
  let statements ← manyUntil (parse fuel .statement) (takeIf (·.kind == .finish) .token none)
  return hashBang ++ statements.dropLast ++ [.finish]

/-- The deepest nesting that a list of tokens can have. -/
def depthOf (tokens : List Token) : Nat := 6 * tokens.length + 6

end Grammar

namespace Tree

/-- The tree of a unit without statements. -/
def empty (size : Nat) : Node := ⟨.program, none, ⟨0, size⟩, []⟩

def parse? (text : String) : Option Node := do
  let tokens ← Token.scan? text
  let (parts, _) ← Grammar.unitParts (Grammar.depthOf tokens) tokens
  let woven ← Shape.weaveAll parts tokens
  if woven.rest.isEmpty then
    some ⟨.program, none, ⟨0, text.utf8ByteSize⟩, woven.lead ++ woven.nodes⟩
  else none

/-- The tree of a text; one that cannot be read has no statements. -/
def parse (text : String) : Node := (parse? text).getD (empty text.utf8ByteSize)

def hasErrors (text : String) : Bool := (parse? text).isNone

/-- What stands in a tree is woven from what the grammar reads of the tokens of the text. -/
theorem exists_woven_of_mem_children {text : String} {node : Node}
    (member : node ∈ (parse text).children) :
    ∃ tokens parts rest woven, Token.scan? text = some tokens ∧
      Grammar.unitParts (Grammar.depthOf tokens) tokens = some (parts, rest) ∧
      Shape.weaveAll parts tokens = some woven ∧ node ∈ woven.lead ++ woven.nodes := by
  rw [parse] at member
  cases parsed : parse? text with
  | none => simp [parsed, empty] at member
  | some root =>
    rw [parsed] at member
    obtain ⟨tokens, scanned, others⟩ := Option.bind_eq_some_iff.1 parsed
    obtain ⟨⟨parts, rest⟩, read, others⟩ := Option.bind_eq_some_iff.1 others
    obtain ⟨woven, wove, others⟩ := Option.bind_eq_some_iff.1 others
    split at others
    · cases others
      exact ⟨tokens, parts, rest, woven, scanned, read, wove, member⟩
    · cases others

end Tree

end CreatorMigration
