import CreatorMigration.Text.Basic

/-! # Quoted texts

String literals are read by dropping the quotes; what stands between them is kept as written.
-/

namespace CreatorMigration.Text

/-- The quotes of string literals, in the order they are tried. -/
def quotes : List String := ["\x27", "\x22", "\x60"]

def unquoteBy (quote text : String) : Option String :=
  (dropStart? quote text).bind (dropEnd? quote)

/-- The text between matching quotes, or the whole trimmed text without them. -/
def unquote (literal : String) : String :=
  let text := trim literal
  (quotes.findSome? (unquoteBy · text)).getD text

/-- A text between single quotes. -/
def singleQuoted (text : String) : String := "\x27" ++ text ++ "\x27"

end CreatorMigration.Text
