import CreatorMigration.Span

/-! # Text by byte offsets

Units are addressed by byte offsets, so a text is cut and measured in bytes and never in characters.

* `Text.slice` cuts a span out of a text.
* `Text.isBoundary` holds where no character is split.
* `Text.trim` and its one-sided forms remove the blank characters of Unicode's `White_Space`.
* `Text.afterLast` is the part behind the last occurrence of a mark, the whole text without one.
-/

namespace CreatorMigration.Text

/-! ## Measuring and cutting -/

def size (text : String) : Nat := text.utf8ByteSize

def slice (text : String) (span : Span) : String :=
  String.Pos.Raw.extract text ⟨span.start⟩ ⟨span.stop⟩

/-- An offset inside the text that splits no character, or the end of the text. -/
def isBoundary (text : String) (offset : Nat) : Bool :=
  String.Pos.Raw.isValid text ⟨offset⟩

/-! ## Lines -/

/-- The number of line feeds whose byte lies before `limit`; the first character is at `offset`. -/
def lineFeedsBefore (limit : Nat) : Nat → List Char → Nat
  | _, [] => 0
  | offset, c :: rest =>
      if offset < limit then
        (if c = '\n' then 1 else 0) + lineFeedsBefore limit (offset + c.utf8Size) rest
      else 0

/-- The one-based line of an offset; offsets past the end count as the end. -/
def lineOf (text : String) (offset : Nat) : Nat :=
  lineFeedsBefore offset 0 text.toList + 1

/-! ## Blank characters -/

/-- Unicode's `White_Space` property. -/
def isBlank (c : Char) : Bool :=
  let code := c.toNat
  (decide (9 ≤ code) && decide (code ≤ 13)) || code == 0x20 || code == 0x85 || code == 0xA0 ||
    code == 0x1680 || (decide (0x2000 ≤ code) && decide (code ≤ 0x200A)) || code == 0x2028 ||
    code == 0x2029 || code == 0x202F || code == 0x205F || code == 0x3000

def trimStartChars (chars : List Char) : List Char := chars.dropWhile isBlank

def trimChars (chars : List Char) : List Char :=
  (trimStartChars (trimStartChars chars).reverse).reverse

def trimStart (text : String) : String := String.ofList (trimStartChars text.toList)

def trim (text : String) : String := String.ofList (trimChars text.toList)

def isBlankText (text : String) : Bool := text.toList.all isBlank

/-! ## Beginnings, ends and parts -/

def hasStart (lead text : String) : Bool := lead.toList.isPrefixOf text.toList

def hasEnd (tail text : String) : Bool := tail.toList.isSuffixOf text.toList

/-- What remains of `text` behind `lead`, when `text` starts with it. -/
def dropStart? (lead text : String) : Option String :=
  if hasStart lead text then some (String.ofList (text.toList.drop lead.length)) else none

/-- What remains of `text` before `tail`, when `text` ends with it. -/
def dropEnd? (tail text : String) : Option String :=
  if hasEnd tail text then
    some (String.ofList (text.toList.take (text.length - tail.length)))
  else none

def occursIn (part : List Char) : List Char → Bool
  | [] => part.isEmpty
  | c :: rest => part.isPrefixOf (c :: rest) || occursIn part rest

/-- Whether `part` occurs in `text`. -/
def includes (part text : String) : Bool := occursIn part.toList text.toList

def afterLastChars (mark : Char) (chars : List Char) : List Char :=
  (chars.reverse.takeWhile (· != mark)).reverse

def afterLast (mark : Char) (text : String) : String :=
  String.ofList (afterLastChars mark text.toList)

def splitOn (mark : Char) (text : String) : List String :=
  (text.toList.splitOn mark).map String.ofList

/-- Removes every copy of `tail` from the end of the text. -/
def dropEndRepeated (tail : String) : Nat → String → String
  | 0, text => text
  | fuel + 1, text =>
      match dropEnd? tail text with
      | some shorter => if tail.isEmpty then text else dropEndRepeated tail fuel shorter
      | none => text

def trimEndMatches (tail text : String) : String :=
  dropEndRepeated tail text.length text

def join (separator : String) (parts : List String) : String :=
  String.intercalate separator parts

end CreatorMigration.Text
