import CreatorMigration.Config.Value
import CreatorMigration.Text.Basic

/-! # TOML documents

`Toml.read?` reads a document into a table of values, or fails for a text that is no document.

* A table may be opened by one header only, after headers of its parts have passed through it.
* A table made by dotted keys is closed for headers, and a table with a header for dotted keys.
* Inline tables and arrays are closed when they end.
-/

namespace CreatorMigration.Toml

/-! ## Documents while they are read -/

inductive Item where
  | value (value : ConfigValue)
  /-- A table; one without a header of its own is implicit, one made by dotted keys is dotted. -/
  | table («implicit» dotted : Bool) (entries : List (String × Item))
  | tables (items : List (List (String × Item)))

abbrev Entries := List (String × Item)

def setEntry (key : String) (item : Item) : Entries → Entries
  | [] => [(key, item)]
  | (other, kept) :: rest =>
      if key = other then (key, item) :: rest else (other, kept) :: setEntry key item rest

/-- Changes the table at the end of a path, making the tables on the way. -/
def updateAt (dotted : Bool) (change : Bool → Entries → Option Entries) :
    List String → Bool → Entries → Option Entries
  | [], isDotted, entries => change isDotted entries
  | key :: path, _, entries =>
      match entries.lookup key with
      | none =>
          (updateAt dotted change path dotted []).map fun inner =>
            setEntry key (.table true dotted inner) entries
      | some (.value _) => none
      | some (.tables items) =>
          match items.getLast? with
          | some last =>
              (updateAt dotted change path false last).map fun inner =>
                setEntry key (.tables (items.dropLast ++ [inner])) entries
          | none => none
      | some (.table isImplicit isDotted inner) =>
          if dotted && !isImplicit then none
          else
            (updateAt dotted change path isDotted inner).map fun inner =>
              setEntry key (.table isImplicit isDotted inner) entries

/-- Adds a value whose key may be dotted; a path of several keys must end in a dotted table. -/
def addValue (path : List String) (key : String) (value : ConfigValue) (entries : Entries) :
    Option Entries :=
  updateAt true
    (fun isDotted inner =>
      if isDotted = path.isEmpty then none
      else if (inner.lookup key).isSome then none
      else some (setEntry key (.value value) inner))
    path false entries

def openTable (path : List String) (key : String) (entries : Entries) : Option Entries :=
  updateAt false
    (fun _ inner =>
      match inner.lookup key with
      | none => some (setEntry key (.table false false []) inner)
      | some (.table true false below) => some (setEntry key (.table false false below) inner)
      | some _ => none)
    path false entries

def openTableItem (path : List String) (key : String) (entries : Entries) : Option Entries :=
  updateAt false
    (fun _ inner =>
      match inner.lookup key with
      | none => some (setEntry key (.tables [[]]) inner)
      | some (.tables items) => some (setEntry key (.tables (items ++ [[]])) inner)
      | some _ => none)
    path false entries

/-- Changes the table that the last header opened. -/
def updateOpen (header : List String) (change : Entries → Option Entries) (entries : Entries) :
    Option Entries :=
  updateAt false (fun _ inner => change inner) header false entries

mutual

def Item.toValue : Item → ConfigValue
  | .value value => value
  | .table _ _ entries => .table (valuesOf entries)
  | .tables items => .list (tablesOf items)

def valuesOf : List (String × Item) → List (String × ConfigValue)
  | [] => []
  | (key, item) :: rest => (key, item.toValue) :: valuesOf rest

def tablesOf : List (List (String × Item)) → List ConfigValue
  | [] => []
  | entries :: rest => .table (valuesOf entries) :: tablesOf rest

end

/-! ## Reading characters -/

abbrev Reader := StateT (List Char) Option

def failure {α : Type} : Reader α := fun _ => none

def peek : Reader (Option Char) := do return (← get).head?

def skip (count : Nat) : Reader Unit := modify (·.drop count)

def startsWith (lead : List Char) : Reader Bool := do return lead.isPrefixOf (← get)

def skipIf (lead : String) : Reader Bool := do
  if ← startsWith lead.toList then do
    skip lead.length
    return true
  else return false

def expect (lead : String) : Reader Unit := do
  if !(← skipIf lead) then failure

def takeWhile (holds : Char → Bool) : Reader (List Char) := do
  let taken := (← get).takeWhile holds
  skip taken.length
  return taken

def isBlank (c : Char) : Bool := c == ' ' || c == '\t'

def skipBlanks : Reader Unit := do
  let _ ← takeWhile isBlank

/-- Control characters may not be written, except for tabs. -/
def isPrintable (c : Char) : Bool := c == '\t' || (decide (0x20 ≤ c.toNat) && c.toNat != 0x7f)

def skipComment : Reader Unit := do
  if ← skipIf "#" then
    let _ ← takeWhile isPrintable

def skipNewline : Reader Bool := do
  if ← skipIf "\n" then return true else skipIf "\r\n"

/-- What may follow at the end of a line. -/
def lineEnd : Reader Unit := do
  skipBlanks
  skipComment
  if !(← skipNewline) && (← peek).isSome then failure

/-- Blanks, comments and line ends between the items of an array. -/
def skipLines : Nat → Reader Unit
  | 0 => pure ()
  | fuel + 1 => do
      skipBlanks
      skipComment
      if ← skipNewline then skipLines fuel

/-! ## Texts -/

def digitValue (c : Char) : Nat :=
  if c.isDigit then c.toNat - '0'.toNat else c.toLower.toNat - 'a'.toNat + 10

def digitsValue (base : Nat) (digits : List Char) : Nat :=
  digits.foldl (fun value c => value * base + digitValue c) 0

def isHexDigit (c : Char) : Bool := c.isDigit || "abcdefABCDEF".toList.contains c

def readCodePoint (count : Nat) : Reader Char := do
  let digits := (← get).take count
  skip count
  let value := digitsValue 16 digits
  if digits.length == count && digits.all isHexDigit && decide value.isValidChar then
    return Char.ofNat value
  else failure

def readEscape : Reader Char := do
  let c ← peek
  skip 1
  match c with
  | some 'b' => return '\x08'
  | some 't' => return '\t'
  | some 'n' => return '\n'
  | some 'f' => return '\x0c'
  | some 'r' => return '\r'
  | some '\x22' => return '\x22'
  | some '\\' => return '\\'
  | some 'u' => readCodePoint 4
  | some 'U' => readCodePoint 8
  | _ => failure

/-- A text behind its opening quote. -/
def readBasic : Nat → Reader (List Char)
  | 0 => failure
  | fuel + 1 => do
      if ← skipIf "\x22" then return []
      else if ← skipIf "\\" then return (← readEscape) :: (← readBasic fuel)
      else
        match ← peek with
        | some c => if isPrintable c then do skip 1; return c :: (← readBasic fuel) else failure
        | none => failure

def readLiteral : Reader (List Char) := do
  let taken ← takeWhile fun c => isPrintable c && c != '\x27'
  expect "\x27"
  return taken

def skipBlankLines : Nat → Reader Unit
  | 0 => pure ()
  | fuel + 1 => do
      skipBlanks
      if ← skipNewline then skipBlankLines fuel

/-- Skips the line end behind a backslash with all blanks and line ends that follow. -/
def skipContinuation : Reader Unit := do
  skipBlanks
  if !(← skipNewline) then failure
  skipBlankLines (← get).length

/-- The end of a text over several lines, where up to two quotes may come first. -/
def readClosing (quote : String) : Reader (Option (List Char)) := do
  let quotes ← takeWhile (· == quote.toList.headD ' ')
  if quotes.length < 3 then do
    modify (quotes ++ ·)
    return none
  else if quotes.length ≤ 5 then return some (quotes.drop 3)
  else failure

def readNewline : Reader (Option (List Char)) := do
  if ← skipNewline then return some ['\n'] else return none

/-- A text over several lines behind its opening quotes. -/
def readLong (quote : String) (escapes : Bool) : Nat → Reader (List Char)
  | 0 => failure
  | fuel + 1 => do
      match ← readClosing quote with
      | some last => return last
      | none =>
          match ← readNewline with
          | some newline => return newline ++ (← readLong quote escapes fuel)
          | none =>
              match escapes, ← peek with
              | _, none => failure
              | true, some '\\' =>
                  skip 1
                  if (← peek).any (fun c => isBlank c || c == '\n' || c == '\r') then do
                    skipContinuation
                    readLong quote escapes fuel
                  else return (← readEscape) :: (← readLong quote escapes fuel)
              | _, some c =>
                  if isPrintable c then do
                    skip 1
                    return c :: (← readLong quote escapes fuel)
                  else failure

def readText : Reader String := do
  let fuel := (← get).length + 1
  if ← skipIf "\x22\x22\x22" then do
    let _ ← skipNewline
    return String.ofList (← readLong "\x22" true fuel)
  else if ← skipIf "\x27\x27\x27" then do
    let _ ← skipNewline
    return String.ofList (← readLong "\x27" false fuel)
  else if ← skipIf "\x22" then return String.ofList (← readBasic fuel)
  else do
    expect "\x27"
    return String.ofList (← readLiteral)

/-! ## Keys -/

def isBareKey (c : Char) : Bool := c.isAlphanum || c == '_' || c == '-'

def readSimpleKey : Reader String := do
  if ← skipIf "\x22" then do
    return String.ofList (← readBasic ((← get).length + 1))
  else if ← skipIf "\x27" then return String.ofList (← readLiteral)
  else do
    let key ← takeWhile isBareKey
    if key.isEmpty then failure else return String.ofList key

def readKeyRest : Nat → Reader (List String)
  | 0 => failure
  | fuel + 1 => do
      skipBlanks
      if ← skipIf "." then do
        skipBlanks
        return (← readSimpleKey) :: (← readKeyRest fuel)
      else return []

/-- A dotted key as the keys in front of the last one, and the last one. -/
def readKey : Reader (List String × String) := do
  skipBlanks
  let first ← readSimpleKey
  let rest ← readKeyRest ((← get).length + 1)
  let keys := first :: rest
  return (keys.dropLast, keys.getLastD first)

/-! ## Scalars without quotes -/

def splitDigits (chars : List Char) : List (List Char) := chars.splitOn '_'

/-- Digits of a base, where underscores stand only between digits. -/
def isDigits (holds : Char → Bool) (chars : List Char) : Bool :=
  (splitDigits chars).all fun part => !part.isEmpty && part.all holds

def withoutSign : List Char → List Char
  | '+' :: rest => rest
  | '-' :: rest => rest
  | other => other

/-- A decimal number without a leading zero. -/
def isDecimal (chars : List Char) : Bool :=
  isDigits Char.isDigit chars && (chars.head? != some '0' || chars.length == 1)

def decimalValue (chars : List Char) : Nat := digitsValue 10 (chars.filter Char.isDigit)

/-- Digits of a base up to the largest number of 64 bits with a sign. -/
def isUnsigned (base : Nat) (holds : Char → Bool) (chars : List Char) : Bool :=
  isDigits holds chars && decide (digitsValue base (chars.filter holds) < Nat.pow 2 63)

def isInteger (chars : List Char) : Bool :=
  match chars with
  | '0' :: 'x' :: rest => isUnsigned 16 isHexDigit rest
  | '0' :: 'o' :: rest => isUnsigned 8 (fun c => decide ('0' ≤ c) && decide (c ≤ '7')) rest
  | '0' :: 'b' :: rest => isUnsigned 2 (fun c => c == '0' || c == '1') rest
  | _ =>
      let bound := if chars.head? = some '-' then Nat.pow 2 63 else Nat.pow 2 63 - 1
      isDecimal (withoutSign chars) && decide (decimalValue chars ≤ bound)

def isExponent (chars : List Char) : Bool := isDigits Char.isDigit (withoutSign chars)

/-- The least number that is rounded to infinity. -/
def infinityBound : Nat := Nat.pow 2 1024 - Nat.pow 2 970

/-- Whether `digits`, with the point moved to the right by `shift`, are rounded to infinity. -/
def isTooLarge (digits : Nat) (shift : Int) : Bool :=
  let size := Int.ofNat (Nat.toDigits 10 digits).length + shift
  if digits = 0 ∨ size < 300 then false
  else if 320 < size then true
  else if 0 ≤ shift then decide (infinityBound ≤ digits * Nat.pow 10 shift.toNat)
  else decide (infinityBound * Nat.pow 10 (-shift).toNat ≤ digits)

def exponentValue (chars : List Char) : Int :=
  if chars.head? = some '-' then -Int.ofNat (decimalValue chars) else Int.ofNat (decimalValue chars)

/-- A fractional number; positive ones may not be too large for 64 bits. -/
def isFloat (chars : List Char) : Bool :=
  let plain := withoutSign chars
  if plain = "inf".toList ∨ plain = "nan".toList then true
  else
    let mantissa := plain.takeWhile fun c => c != 'e' && c != 'E'
    let exponent := plain.drop mantissa.length
    let exponentFits := exponent.isEmpty || isExponent (exponent.drop 1)
    let fits (whole fraction : List Char) : Bool :=
      chars.head? == some '-' ||
        !isTooLarge (decimalValue (whole ++ fraction))
          (exponentValue (exponent.drop 1) - (fraction.filter Char.isDigit).length)
    match mantissa.splitOn '.' with
    | [whole] => isDecimal whole && !exponent.isEmpty && exponentFits && fits whole []
    | [whole, fraction] =>
        isDecimal whole && isDigits Char.isDigit fraction && exponentFits && fits whole fraction
    | _ => false

def isNumberBetween (low high : Nat) (chars : List Char) : Bool :=
  chars.length == 2 && chars.all Char.isDigit && decide (low ≤ decimalValue chars) &&
    decide (decimalValue chars ≤ high)

def isLeapYear (year : Nat) : Bool := year % 4 == 0 && (year % 100 != 0 || year % 400 == 0)

def daysIn (year month : Nat) : Nat :=
  if month = 2 then (if isLeapYear year then 29 else 28)
  else if [4, 6, 9, 11].contains month then 30 else 31

def isDate (chars : List Char) : Bool :=
  match chars.splitOn '-' with
  | [year, month, day] =>
      year.length == 4 && year.all Char.isDigit && isNumberBetween 1 12 month &&
        isNumberBetween 1 (daysIn (decimalValue year) (decimalValue month)) day
  | _ => false

def isTime (chars : List Char) : Bool :=
  let (whole, fraction) := chars.span (· != '.')
  let fractionFits :=
    fraction.isEmpty || (decide (1 < fraction.length) && (fraction.drop 1).all Char.isDigit)
  match whole.splitOn ':' with
  | [hour, minute, second] =>
      isNumberBetween 0 23 hour && isNumberBetween 0 59 minute && isNumberBetween 0 60 second &&
        fractionFits
  | _ => false

/-- A time of day with the distance from universal time, if there is one. -/
def isZonedTime (chars : List Char) : Bool :=
  let (clock, zone) := chars.span fun c => c.isDigit || c == ':' || c == '.'
  isTime clock &&
    (zone.isEmpty || zone == ['Z'] || zone == ['z'] ||
      ((zone.head? == some '+' || zone.head? == some '-') &&
        match (zone.drop 1).splitOn ':' with
        | [hour, minute] => isNumberBetween 0 23 hour && isNumberBetween 0 59 minute
        | _ => false))

def isMoment (chars : List Char) : Bool :=
  let (date, rest) := (chars.take 10, chars.drop 10)
  match rest with
  | [] => isDate date || isTime chars
  | mark :: clock =>
      (isDate date && (mark == 'T' || mark == 't' || mark == ' ') && isZonedTime clock) ||
        isTime chars

def isScalarPart (c : Char) : Bool := c.isAlphanum || "+-_.:".toList.contains c

/-- A date and a time may be separated by a blank. -/
def takeScalar : Reader (List Char) := do
  let first ← takeWhile isScalarPart
  let rest ← get
  match rest with
  | ' ' :: digit :: _ =>
      if isDate first && digit.isDigit then do
        skip 1
        return first ++ ' ' :: (← takeWhile isScalarPart)
      else return first
  | _ => return first

def readScalar : Reader ConfigValue := do
  let chars ← takeScalar
  if chars = "true".toList ∨ chars = "false".toList then return .otherScalar
  else if isInteger chars || isFloat chars || isMoment chars then return .otherScalar
  else failure

/-! ## Values -/

mutual

def readValue : Nat → Reader ConfigValue
  | 0 => failure
  | fuel + 1 => do
      match ← peek with
      | some '\x22' | some '\x27' => return .text (← readText)
      | some '[' => do
          skip 1
          return .list (← readItems fuel)
      | some '{' => do
          skip 1
          skipBlanks
          if ← skipIf "\x7d" then return .table []
          else return .table (valuesOf (← readPairs fuel []))
      | _ => readScalar

/-- The items of an array up to its closing bracket. -/
def readItems : Nat → Reader (List ConfigValue)
  | 0 => failure
  | fuel + 1 => do
      skipLines ((← get).length + 1)
      if ← skipIf "]" then return []
      else do
        let first ← readValue fuel
        skipLines ((← get).length + 1)
        if ← skipIf "," then return first :: (← readItems fuel)
        else do
          expect "]"
          return [first]

/-- The pairs of an inline table up to its closing brace. -/
def readPairs : Nat → Entries → Reader Entries
  | 0, _ => failure
  | fuel + 1, entries => do
      let (path, key) ← readKey
      skipBlanks
      expect "="
      skipBlanks
      let value ← readValue fuel
      skipBlanks
      match addValue path key value entries with
      | none => failure
      | some extended =>
          if ← skipIf "," then readPairs fuel extended
          else do
            expect "\x7d"
            return extended

end

/-! ## Lines -/

/-- The document so far and the path of the header that is open. -/
structure Document where
  root : Entries
  header : List String

def readHeader (document : Document) : Reader Document := do
  let repeats ← skipIf "[["
  if !repeats then expect "["
  let (path, key) ← readKey
  skipBlanks
  expect (if repeats then "]]" else "]")
  let extended :=
    if repeats then openTableItem path key document.root else openTable path key document.root
  match extended with
  | some root => return ⟨root, path ++ [key]⟩
  | none => failure

def readPair (document : Document) : Reader Document := do
  let (path, key) ← readKey
  skipBlanks
  expect "="
  skipBlanks
  let value ← readValue (2 * (← get).length + 2)
  match updateOpen document.header (addValue path key value) document.root with
  | some root => return { document with root }
  | none => failure

def readLine (document : Document) : Reader Document := do
  skipBlanks
  match ← peek with
  | none | some '#' | some '\n' | some '\r' => return document
  | some '[' => readHeader document
  | some _ => readPair document

def readLinesFrom : Nat → Document → Reader Document
  | 0, _ => failure
  | fuel + 1, document => do
      let document ← readLine document
      lineEnd
      if (← get).isEmpty then return document else readLinesFrom fuel document

/-- The table that a document writes; a byte order mark in front of it says nothing. -/
def read? (text : String) : Option ConfigValue :=
  let chars := match text.toList with
    | '\ufeff' :: rest => rest
    | other => other
  match readLinesFrom (chars.length + 1) ⟨[], []⟩ chars with
  | some (document, _) => some (.table (valuesOf document.root))
  | none => none

end CreatorMigration.Toml
