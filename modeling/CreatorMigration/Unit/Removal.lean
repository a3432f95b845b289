import CreatorMigration.Unit.Basic

/-! # Comments and removal

* `SourceUnit.commentAbove?` is the comment right above a node.
* `SourceUnit.removalSpan` covers a statement with its doc comment, its indentation and the rest of
  its last line, and a blank line where two would be left.
-/

namespace CreatorMigration.SourceUnit

/-! ## Comments above a node -/

def countLineFeeds (text : String) : Nat := text.toList.count '\n'

/-- The comment in front of a node, with at most one line feed and nothing else between them. -/
def commentAbove? (unit : SourceUnit) (place : Place) : Option Node :=
  match place.before with
  | [] => none
  | previous :: _ =>
      let gap := unit.slice ⟨previous.span.stop, place.node.span.start⟩
      if previous.isComment ∧ Text.isBlankText gap ∧ countLineFeeds gap ≤ 1 then some previous
      else none

def docAbove? (unit : SourceUnit) (place : Place) : Option Node :=
  (unit.commentAbove? place).filter fun comment => Text.hasStart "/**" (unit.textOf comment)

/-- The start of a statement or of the doc comment above it. -/
def documentedStart (unit : SourceUnit) (place : Place) : Nat :=
  ((unit.docAbove? place).getD place.node).span.start

/-! ## Removal -/

def isIndent (c : Char) : Bool := c == ' ' || c == '\t'

def isLineRest (c : Char) : Bool := isIndent c || c == ';'

/-- A span with the indentation in front of it and the rest of the line behind it. -/
def wholeLines (text : String) (span : Span) : Span :=
  let before := (Text.slice text ⟨0, span.start⟩).toList.reverse
  let after := (Text.slice text ⟨span.stop, Text.size text⟩).toList
  let lineRest := after.takeWhile isLineRest
  let lineFeed := if (after.drop lineRest.length).head? = some '\n' then 1 else 0
  ⟨span.start - (before.takeWhile isIndent).length, span.stop + lineRest.length + lineFeed⟩

/-- Takes one of two blank lines that would be left where a span is removed. -/
def joinBlankLines (text : String) (span : Span) : Span :=
  let before := (Text.slice text ⟨0, span.start⟩).toList.reverse
  let after := (Text.slice text ⟨span.stop, Text.size text⟩).toList
  let blankLineBefore := ['\n', '\n'].isPrefixOf before
  if (before.isEmpty || blankLineBefore) && after.head? = some '\n' then
    ⟨span.start, span.stop + 1⟩
  else if after.isEmpty && blankLineBefore then ⟨span.start - 1, span.stop⟩
  else span

def removalSpanOf (unit : SourceUnit) (span : Span) : Span :=
  joinBlankLines unit.text (wholeLines unit.text span)

def removalSpan (unit : SourceUnit) (statement : Place) : Span :=
  unit.removalSpanOf ⟨unit.documentedStart statement, statement.node.span.stop⟩

end CreatorMigration.SourceUnit
