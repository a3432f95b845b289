import CreatorMigration.Text.Basic
import CreatorMigration.Tree.Token

/-! # Reading tokens

`Token.scan?` cuts a text into tokens, or fails where no token can start or one is left open.

* A slash starts a regular expression where an operand is due and divides elsewhere; the tokens in
  front of it tell which.
* The holes of a template nest, so the scanner keeps the brackets that are open.
* `>` is always a token of its own, since it closes type arguments one at a time.
-/

namespace CreatorMigration.Token

/-! ## Characters -/

def isLineEnd (c : Char) : Bool :=
  c == '\n' || c == '\r' || c.toNat == 0x2028 || c.toNat == 0x2029

/-- What may stand between tokens. -/
def isSpace (c : Char) : Bool :=
  let code := c.toNat
  Text.isBlank c && code != 0x85 || code == 0xFEFF || code == 0x2060 || code == 0x200B

/-- Whatever is neither blank nor a mark of the language may stand in a name. -/
def isNamePart (c : Char) : Bool :=
  decide (0x20 ≤ c.toNat) && !isSpace c &&
    !(":;\x60\x22\x27@#.,|^&<=>+-*/\\%?!~()[]\x7b\x7d".toList.contains c)

def isNameStart (c : Char) : Bool := isNamePart c && !c.isDigit

def width (chars : List Char) : Nat := chars.foldr (fun c size => c.utf8Size + size) 0

/-! ## Single tokens

Each of these takes the characters of one token off the front of a text. -/

/-- The characters up to the quote that ends a literal, with it. -/
def takeString (quote : Char) : List Char → Option (List Char × List Char)
  | [] => none
  | '\\' :: escaped :: rest =>
      (takeString quote rest).map fun (taken, left) => ('\\' :: escaped :: taken, left)
  | c :: rest =>
      if c = quote then some ([c], rest)
      else if c = '\n' ∨ c = '\r' then none
      else (takeString quote rest).map fun (taken, left) => (c :: taken, left)

/-- The characters of a regular expression up to its closing slash, with it. -/
def takeRegex (inClass : Bool) : List Char → Option (List Char × List Char)
  | [] => none
  | '\\' :: escaped :: rest =>
      (takeRegex inClass rest).map fun (taken, left) => ('\\' :: escaped :: taken, left)
  | c :: rest =>
      if c = '/' ∧ !inClass then some ([c], rest)
      else if isLineEnd c then none
      else
        (takeRegex (if c = '[' then true else if c = ']' then false else inClass) rest).map
          fun (taken, left) => (c :: taken, left)

def takeBlockComment : List Char → Option (List Char × List Char)
  | [] => none
  | '*' :: '/' :: rest => some (['*', '/'], rest)
  | c :: rest => (takeBlockComment rest).map fun (taken, left) => (c :: taken, left)

/-- The plain text of a template up to the next mark in it. -/
def takeTemplateText : List Char → List Char × List Char
  | [] => ([], [])
  | '$' :: '{' :: rest => ([], '$' :: '{' :: rest)
  | c :: rest =>
      if c = '\x60' ∨ c = '\\' then ([], c :: rest)
      else
        let (taken, left) := takeTemplateText rest
        (c :: taken, left)

def isDigitPart (c : Char) : Bool := c.isDigit || c == '_'

def takeExponent : List Char → List Char × List Char
  | mark :: sign :: rest =>
      if mark != 'e' && mark != 'E' then ([], mark :: sign :: rest)
      else if (sign == '+' || sign == '-') && (rest.head?.any Char.isDigit) then
        let (digits, left) := rest.span isDigitPart
        (mark :: sign :: digits, left)
      else if sign.isDigit then
        let (digits, left) := (sign :: rest).span isDigitPart
        (mark :: digits, left)
      else ([], mark :: sign :: rest)
  | short => ([], short)

def takeNumber (chars : List Char) : List Char × List Char :=
  match chars with
  | '0' :: radix :: rest =>
      if "xXoObB".toList.contains radix then
        let (digits, left) := rest.span fun c => c.isAlphanum || c == '_'
        ('0' :: radix :: digits, left)
      else takeDecimal ('0' :: radix :: rest)
  | other => takeDecimal other
where
  takeDecimal (chars : List Char) : List Char × List Char :=
    let (whole, afterWhole) := chars.span isDigitPart
    match afterWhole with
    | 'n' :: left => (whole ++ ['n'], left)
    | '.' :: afterDot =>
        let (fraction, afterFraction) := afterDot.span isDigitPart
        let (exponent, left) := takeExponent afterFraction
        (whole ++ '.' :: fraction ++ exponent, left)
    | other =>
        let (exponent, left) := takeExponent other
        (whole ++ exponent, left)

/-- The marks of more than one character, longer ones first. -/
def longMarks : List String :=
  [ "<<=", "**=", "===", "!==", "...", "&&=", "||=", "??=",
    "=>", "==", "!=", "<=", "<<", "&&", "||", "??", "?.", "++", "--", "**",
    "+=", "-=", "*=", "/=", "%=", "&=", "|=", "^=" ]

def shortMarks : List Char := "\x7b\x7d()[];,~:@.?<>=+-*/%&|^!".toList

def takeMark (chars : List Char) : Option (List Char × List Char) :=
  match longMarks.find? (fun mark => mark.toList.isPrefixOf chars) with
  | some mark =>
      let rest := chars.drop mark.length
      if mark == "?." && rest.head?.any Char.isDigit then some (['?'], chars.drop 1)
      else some (mark.toList, rest)
  | none =>
      match chars with
      | c :: rest => if shortMarks.contains c then some ([c], rest) else none
      | [] => none

/-! ## What stands between tokens -/

/-- The comments in front of a token, and whether a line feed stands behind the last of them. -/
structure Gap where
  comments : List Comment
  lineBreak : Bool

def Gap.hasLineBreak (gap : Gap) : Bool := gap.lineBreak || gap.comments.any Comment.lineBreak

structure Position where
  offset : Nat
  chars : List Char

def Position.skip (position : Position) (taken left : List Char) : Position :=
  ⟨position.offset + width taken, left⟩

/-- Skips blanks and comments; `lineBreak` tells of line feeds behind the last comment. -/
def skipGap : Nat → List Comment → Bool → Position → Option (Gap × Position)
  | 0, _, _, _ => none
  | fuel + 1, comments, lineBreak, position =>
      match position.chars with
      | '/' :: '/' :: _ =>
          let (taken, left) := position.chars.span fun c => !isLineEnd c
          let after := position.skip taken left
          skipGap fuel (comments ++ [⟨⟨position.offset, after.offset⟩, lineBreak⟩]) false after
      | '/' :: '*' :: rest => do
          let (taken, left) ← takeBlockComment rest
          let after := position.skip ('/' :: '*' :: taken) left
          skipGap fuel (comments ++ [⟨⟨position.offset, after.offset⟩, lineBreak⟩]) false after
      | c :: _ =>
          if isSpace c then
            let (taken, left) := position.chars.span isSpace
            skipGap fuel comments (lineBreak || taken.contains '\n') (position.skip taken left)
          else some (⟨comments, lineBreak⟩, position)
      | [] => some (⟨comments, lineBreak⟩, position)

/-! ## All tokens -/

inductive Opening where
  | brace
  | bracket
  | hole
  /-- A parenthesis, and whether it belongs to the head of a statement. -/
  | parenthesis (head : Bool)

/-- What the scanner remembers of the tokens read so far. -/
structure Memory where
  /-- The brackets that are open, the innermost first. -/
  openings : List Opening
  /-- Whether an operand is due, so that a slash starts a regular expression. -/
  operandDue : Bool
  /-- Whether the last token is a word that heads a statement with a condition. -/
  conditionDue : Bool

/-- The words behind which an operand is due. -/
def operandWords : List String :=
  [ "return", "typeof", "case", "in", "of", "instanceof", "new", "delete", "void", "throw", "else",
    "do", "yield", "await", "default", "extends" ]

def conditionWords : List String := ["if", "while", "for", "with"]

/-- What is remembered behind a mark; `none` for a closing bracket that closes nothing. -/
def Memory.afterMark (memory : Memory) (mark : String) : Option Memory :=
  let opened (opening : Opening) : Option Memory :=
    some ⟨opening :: memory.openings, true, false⟩
  match mark, memory.openings with
  | "\x7b", _ => opened .brace
  | "[", _ => opened .bracket
  | "(", _ => opened (.parenthesis memory.conditionDue)
  | "\x7d", .brace :: outer => some ⟨outer, true, false⟩
  | "]", .bracket :: outer => some ⟨outer, false, false⟩
  | ")", .parenthesis head :: outer => some ⟨outer, head, false⟩
  | "\x7d", _ => none
  | "]", _ => none
  | ")", _ => none
  | "++", _ => some { memory with operandDue := false, conditionDue := false }
  | "--", _ => some { memory with operandDue := false, conditionDue := false }
  | _, openings => some ⟨openings, true, false⟩

/-- One token outside templates: its kind, its characters, the rest and what is remembered. -/
def takeToken (memory : Memory) (chars : List Char) :
    Option (TokenKind × List Char × List Char × Memory) :=
  let settled : Memory := { memory with operandDue := false, conditionDue := false }
  match chars with
  | [] => none
  | '\x60' :: rest => some (.templateOpen, ['\x60'], rest, settled)
  | '\x27' :: rest => do
      let (taken, left) ← takeString '\x27' rest
      some (.string, '\x27' :: taken, left, settled)
  | '\x22' :: rest => do
      let (taken, left) ← takeString '\x22' rest
      some (.string, '\x22' :: taken, left, settled)
  | '#' :: rest => do
      let (name, left) := rest.span isNamePart
      if name.isEmpty then none else some (.privateName, '#' :: name, left, settled)
  | c :: rest =>
      if isNameStart c then
        let (name, left) := chars.span isNamePart
        let text := String.ofList name
        some (.word, name, left,
          { memory with
            operandDue := operandWords.contains text
            conditionDue := conditionWords.contains text })
      else if c.isDigit || (c == '.' && rest.head?.any Char.isDigit) then
        let (number, left) := takeNumber chars
        some (.number, number, left, settled)
      else if c == '/' && memory.operandDue then do
        let (body, afterBody) ← takeRegex false rest
        let (flags, left) := afterBody.span Char.isAlpha
        some (.regex, '/' :: body ++ flags, left, settled)
      else if c == '}' && (match memory.openings with | .hole :: _ => true | _ => false) then
        some (.holeClose, [c], rest, ⟨memory.openings.drop 1, false, false⟩)
      else do
        let (mark, left) ← takeMark chars
        let memory ← memory.afterMark (String.ofList mark)
        some (.punctuation, mark, left, memory)

/-- One token inside a template. -/
def takeTemplateToken (memory : Memory) (chars : List Char) :
    Option (TokenKind × List Char × List Char × Memory) :=
  match chars with
  | [] => none
  | '\x60' :: rest => some (.templateClose, ['\x60'], rest, memory)
  | '$' :: '{' :: rest =>
      some (.holeOpen, ['$', '{'], rest, ⟨.hole :: memory.openings, true, false⟩)
  | '\\' :: escaped :: rest => some (.templateEscape, ['\\', escaped], rest, memory)
  | _ =>
      let (taken, left) := takeTemplateText chars
      if taken.isEmpty then none else some (.templateText, taken, left, memory)

/-- Whether the characters behind a token belong to a template. -/
def entersTemplate (inTemplate : Bool) : TokenKind → Bool
  | .templateOpen | .holeClose => true
  | .templateClose | .holeOpen => false
  | _ => inTemplate

def scanFrom : Nat → Memory → Bool → Position → Option (List Token)
  | 0, _, _, _ => none
  | fuel + 1, memory, inTemplate, position => do
      let (gap, start) ←
        if inTemplate then some (⟨[], false⟩, position)
        else skipGap (fuel + 1) [] false position
      if start.chars.isEmpty then
        if inTemplate || !memory.openings.isEmpty then none
        else
          some [⟨.finish, "", Span.point start.offset, gap.hasLineBreak, gap.comments⟩]
      else do
        let (kind, taken, left, memory) ←
          if inTemplate then takeTemplateToken memory start.chars
          else takeToken memory start.chars
        let after := start.skip taken left
        let rest ← scanFrom fuel memory (entersTemplate inTemplate kind) after
        some (⟨kind, String.ofList taken, ⟨start.offset, after.offset⟩, gap.hasLineBreak,
          gap.comments⟩ :: rest)

/-- The line that names an interpreter, which may only open a unit. -/
def hashBang? (chars : List Char) : Option (Token × Position) :=
  match chars with
  | '#' :: '!' :: _ =>
      let (taken, left) := chars.span fun c => !isLineEnd c
      some (⟨.hashBang, String.ofList taken, ⟨0, width taken⟩, false, []⟩, ⟨width taken, left⟩)
  | _ => none

def scan? (text : String) : Option (List Token) :=
  let chars := text.toList
  let fresh : Memory := ⟨[], true, false⟩
  match hashBang? chars with
  | some (token, position) => (scanFrom (chars.length + 1) fresh false position).map (token :: ·)
  | none => scanFrom (chars.length + 1) fresh false ⟨0, chars⟩

end CreatorMigration.Token
