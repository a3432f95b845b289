import CreatorMigration.Pattern.Basic

/-! # Reading patterns

`Pattern.ofText?` reads the written form of a pattern, or fails for a text that is none: a group or
a class that is left open, an operator with nothing to repeat, a range that runs backwards, a
reference back to a group, or an escape without a meaning.
-/

namespace CreatorMigration.Pattern

/-- The modes that `(?i)` and its kin switch. -/
structure Modes where
  ignoreCase : Bool := false
  multiLine : Bool := false
  dotAll : Bool := false
  spaced : Bool := false

structure State where
  chars : List Char
  modes : Modes

abbrev Reader := StateT State Option

/-! ## Characters -/

def failure {α : Type} : Reader α := fun _ => none

def peek : Reader (Option Char) := do return (← get).chars.head?

def peekSecond : Reader (Option Char) := do return (← get).chars[1]?

def skip (count : Nat) : Reader Unit :=
  modify fun state => { state with chars := state.chars.drop count }

def next : Reader Char := do
  match ← peek with
  | some c => do
      skip 1
      return c
  | none => failure

def skipIf (c : Char) : Reader Bool := do
  if (← peek) == some c then do
    skip 1
    return true
  else return false

def expect (c : Char) : Reader Unit := do
  if !(← skipIf c) then failure

def takeWhile (holds : Char → Bool) : Reader (List Char) := do
  let taken := (← get).chars.takeWhile holds
  skip taken.length
  return taken

/-- A comment of the spaced mode, or nothing. -/
def dropComment : List Char → List Char
  | '#' :: rest => rest.dropWhile (· != '\n')
  | other => other

def dropSpaced : Nat → List Char → List Char
  | 0, chars => chars
  | fuel + 1, chars =>
      match chars with
      | c :: rest =>
          if Text.isBlank c then dropSpaced fuel rest
          else if c = '#' then dropSpaced fuel (dropComment chars)
          else chars
      | [] => []

/-- Skips blanks and comments in the spaced mode. -/
def skipSpaced : Reader Unit :=
  modify fun state =>
    if state.modes.spaced then { state with chars := dropSpaced state.chars.length state.chars }
    else state

/-! ## Numbers -/

def digitValue (c : Char) : Nat :=
  if c.isDigit then c.toNat - '0'.toNat else c.toLower.toNat - 'a'.toNat + 10

def valueIn (base : Nat) (digits : List Char) : Nat :=
  digits.foldl (fun value c => value * base + digitValue c) 0

def isHexDigit (c : Char) : Bool := c.isDigit || "abcdefABCDEF".toList.contains c

def codePoint (value : Nat) : Reader Char :=
  if value.isValidChar then pure (Char.ofNat value) else failure

/-- `\x41`, `\x{41}` and the longer forms, behind the letter that sets the number of digits. -/
def readHex (count : Nat) : Reader Char := do
  if ← skipIf '{' then do
    let digits ← takeWhile isHexDigit
    expect '}'
    if digits.isEmpty then failure else codePoint (valueIn 16 digits)
  else do
    let digits := (← get).chars.take count
    skip count
    if digits.length == count && digits.all isHexDigit then codePoint (valueIn 16 digits)
    else failure

def readDecimal : Reader Nat := do
  let _ ← takeWhile Text.isBlank
  let digits ← takeWhile Char.isDigit
  let _ ← takeWhile Text.isBlank
  let value := valueIn 10 digits
  if digits.isEmpty || Nat.pow 2 32 ≤ value then failure else return value

/-! ## Sets of characters -/

def single (modes : Modes) (c : Char) : CharSet :=
  if modes.ignoreCase then .foldedRange c c else .range c c

def rangeOf (modes : Modes) (low high : Char) : CharSet :=
  if modes.ignoreCase then .foldedRange low high else .range low high

/-- The names of Unicode classes without case and separators. -/
def unicodeClasses : List (String × CharSet) :=
  [ ("l", .letter), ("letter", .letter), ("alphabetic", .letter), ("alpha", .letter),
    ("lu", .upper), ("uppercaseletter", .upper), ("uppercase", .upper), ("upper", .upper),
    ("ll", .lower), ("lowercaseletter", .lower), ("lowercase", .lower), ("lower", .lower),
    ("n", .digit), ("nd", .digit), ("decimalnumber", .digit), ("whitespace", .space),
    ("space", .space), ("any", .complement .nothing) ]

def unicodeClass (name : List Char) : Reader CharSet := do
  let plain := (name.filter fun c => !"_- ".toList.contains c).map Char.toLower
  match unicodeClasses.lookup (String.ofList plain) with
  | some set => return set
  | none => failure

/-- A Unicode class behind `\p` or `\P`. -/
def readUnicodeClass (negated : Bool) : Reader CharSet := do
  let name ←
    if ← skipIf '{' then do
      let name ← takeWhile (· != '}')
      expect '}'
      pure name
    else do pure [← next]
  let (inverse, name) := match name with
    | '^' :: rest => (true, rest)
    | other => (false, other)
  let set ← unicodeClass name
  return if negated != inverse then .complement set else set

def asciiRanges (ranges : List (Char × Char)) : CharSet :=
  ranges.foldl (fun set (low, high) => .union set (.range low high)) .nothing

/-- The classes between `[:` and `:]`, which are ASCII. -/
def asciiClasses : List (String × CharSet) :=
  [ ("alnum", asciiRanges [('0', '9'), ('A', 'Z'), ('a', 'z')]),
    ("alpha", asciiRanges [('A', 'Z'), ('a', 'z')]),
    ("ascii", asciiRanges [('\x00', '\x7f')]),
    ("blank", asciiRanges [('\t', '\t'), (' ', ' ')]),
    ("cntrl", asciiRanges [('\x00', '\x1f'), ('\x7f', '\x7f')]),
    ("digit", asciiRanges [('0', '9')]),
    ("graph", asciiRanges [('!', '~')]),
    ("lower", asciiRanges [('a', 'z')]),
    ("print", asciiRanges [(' ', '~')]),
    ("punct", asciiRanges [('!', '/'), (':', '@'), ('[', '\x60'), ('\x7b', '~')]),
    ("space", asciiRanges [('\t', '\r'), (' ', ' ')]),
    ("upper", asciiRanges [('A', 'Z')]),
    ("word", asciiRanges [('0', '9'), ('A', 'Z'), ('a', 'z'), ('_', '_')]),
    ("xdigit", asciiRanges [('0', '9'), ('A', 'F'), ('a', 'f')]) ]

/-! ## Escapes -/

/-- What a backslash and the characters behind it stand for. -/
inductive Escape where
  | literal (c : Char)
  | set (set : CharSet)
  | assertion (condition : Assertion)

/-- Every ASCII character may be escaped that is no letter, no digit and no angle bracket. -/
def isEscapable (c : Char) : Bool :=
  decide (c.toNat < 0x80) && !c.isAlphanum && c != '<' && c != '>'

def readEscape : Reader Escape := do
  match ← next with
  | 'x' => return .literal (← readHex 2)
  | 'u' => return .literal (← readHex 4)
  | 'U' => return .literal (← readHex 8)
  | 'p' => return .set (← readUnicodeClass false)
  | 'P' => return .set (← readUnicodeClass true)
  | 'd' => return .set .digit
  | 'D' => return .set (.complement .digit)
  | 's' => return .set .space
  | 'S' => return .set (.complement .space)
  | 'w' => return .set .wordPart
  | 'W' => return .set (.complement .wordPart)
  | 'a' => return .literal '\x07'
  | 'f' => return .literal '\x0c'
  | 't' => return .literal '\t'
  | 'n' => return .literal '\n'
  | 'r' => return .literal '\r'
  | 'v' => return .literal '\x0b'
  | 'A' => return .assertion .textStart
  | 'z' => return .assertion .textEnd
  | 'b' => return .assertion .wordEdge
  | 'B' => return .assertion .noWordEdge
  | '<' => return .assertion .wordStart
  | '>' => return .assertion .wordEnd
  | c => if isEscapable c then return .literal c else failure

/-! ## Classes in brackets -/

/-- An item of a class: a character, which may start a range, or a set. -/
def readClassItem : Reader (Char ⊕ CharSet) := do
  let c ← next
  if c = '\\' then
    match ← readEscape with
    | .literal c => return .inl c
    | .set set => return .inr set
    | .assertion _ => failure
  else return .inl c

def readAsciiClass : Reader CharSet := do
  skip 2
  let negated ← skipIf '^'
  let name ← takeWhile Char.isLower
  expect ':'
  expect ']'
  match asciiClasses.lookup (String.ofList name) with
  | some set => return if negated then .complement set else set
  | none => failure

def readClassRange (modes : Modes) : Reader CharSet := do
  match ← readClassItem with
  | .inr set => return set
  | .inl low => do
      skipSpaced
      let second ← peekSecond
      if (← peek) == some '-' && second != some ']' && second != some '-' then do
        skip 1
        skipSpaced
        match ← readClassItem with
        | .inl high => if low ≤ high then return rangeOf modes low high else failure
        | .inr _ => failure
      else return single modes low

/-- How the items read next are joined with those read before. -/
inductive Joining where
  | union
  | intersection
  | difference
  | exclusion

def Joining.apply : Joining → CharSet → CharSet → CharSet
  | union, left, right => .union left right
  | intersection, left, right => .intersection left right
  | difference, left, right => .intersection left (.complement right)
  | exclusion, left, right =>
      .intersection (.union left right) (.complement (.intersection left right))

def joiningOf : Option Char → Option Char → Option Joining
  | some '&', some '&' => some .intersection
  | some '-', some '-' => some .difference
  | some '~', some '~' => some .exclusion
  | _, _ => none

mutual

/-- A class behind its opening bracket. -/
def readClass : Nat → Reader CharSet
  | 0 => failure
  | fuel + 1 => do
      let modes := (← get).modes
      let negated ← skipIf '^'
      skipSpaced
      let dashes ← takeWhile (· == '-')
      let start := dashes.foldl (fun set c => CharSet.union set (single modes c)) .nothing
      let start ←
        if dashes.isEmpty && (← peek) == some ']' then do
          skip 1
          pure (CharSet.union start (single modes ']'))
        else pure start
      let set ← readClassItems fuel .nothing .union start
      return if negated then .complement set else set

/-- The items up to the closing bracket: `before` joined with the union of those read so far. -/
def readClassItems : Nat → CharSet → Joining → CharSet → Reader CharSet
  | 0, _, _, _ => failure
  | fuel + 1, before, joining, items => do
      skipSpaced
      let first ← peek
      let second ← peekSecond
      if first == some ']' then do
        skip 1
        return joining.apply before items
      else
        match joiningOf first second with
        | some nextJoining => do
            skip 2
            readClassItems fuel (joining.apply before items) nextJoining .nothing
        | none => do
            let item ←
              if first == some '[' then
                if second == some ':' then readAsciiClass
                else do
                  skip 1
                  readClass fuel
              else readClassRange (← get).modes
            readClassItems fuel before joining (.union items item)

end

/-! ## Groups and operators -/

def readModes : Nat → Bool → Modes → Reader Modes
  | 0, _, _ => failure
  | fuel + 1, value, modes => do
      match ← peek with
      | some ')' | some ':' => return modes
      | some '-' => if value then do skip 1; readModes fuel false modes else failure
      | some 'i' => do skip 1; readModes fuel value { modes with ignoreCase := value }
      | some 'm' => do skip 1; readModes fuel value { modes with multiLine := value }
      | some 's' => do skip 1; readModes fuel value { modes with dotAll := value }
      | some 'x' => do skip 1; readModes fuel value { modes with spaced := value }
      | some 'u' | some 'U' | some 'R' => do skip 1; readModes fuel value modes
      | _ => failure

def isGroupNamePart (c : Char) : Bool :=
  Text.isWordPart c || c == '.' || c == '[' || c == ']'

def readGroupName : Reader Unit := do
  let name ← takeWhile isGroupNamePart
  expect '>'
  if name.head?.any (fun c => c.isDigit || c == '.' || c == '[' || c == ']') || name.isEmpty then
    failure

/-- The bounds between braces. -/
def readBounds : Reader (Nat × Option Nat) := do
  let least ← readDecimal
  let most ←
    if ← skipIf ',' then
      if (← peek) == some '}' then pure none else some <$> readDecimal
    else pure (some least)
  expect '}'
  if most.any (· < least) then failure else return (least, most)

/-- The operators behind an item, each of which may be followed by a question mark. -/
def readOperators : Nat → Pattern → Reader Pattern
  | 0, pattern => pure pattern
  | fuel + 1, pattern => do
      skipSpaced
      let bounds ←
        match ← peek with
        | some '*' => do skip 1; pure (some (0, none))
        | some '+' => do skip 1; pure (some (1, none))
        | some '?' => do skip 1; pure (some (0, some 1))
        | some '{' => do skip 1; some <$> readBounds
        | _ => pure none
      match bounds with
      | some (least, most) => do
          let _ ← skipIf '?'
          readOperators fuel (.repeated pattern least most)
      | none => return pattern

def dot (modes : Modes) : Pattern :=
  .one (if modes.dotAll then .complement .nothing else .complement (.range '\n' '\n'))

mutual

/-- Alternatives up to the end of the group. -/
def readChoice : Nat → Reader Pattern
  | 0 => failure
  | fuel + 1 => do
      let first ← readSequence fuel
      if ← skipIf '|' then return .choice first (← readChoice fuel) else return first

def readSequence : Nat → Reader Pattern
  | 0 => failure
  | fuel + 1 => do
      skipSpaced
      match ← peek with
      | none | some '|' | some ')' => return .empty
      | some '(' => do
          skip 1
          match ← readGroup fuel with
          | some group => do
              let first ← readOperators fuel group
              return .sequence first (← readSequence fuel)
          | none => do
              skipSpaced
              if (← peek).any "*+?\x7b".toList.contains then failure else readSequence fuel
      | some _ => do
          let first ← readOperators fuel (← readItem fuel)
          return .sequence first (← readSequence fuel)

/-- A group behind its opening bracket; one that only switches modes is none. -/
def readGroup : Nat → Reader (Option Pattern)
  | 0 => failure
  | fuel + 1 => do
      let outer := (← get).modes
      let closeGroup : Reader (Option Pattern) := do
        let inner ← readChoice fuel
        expect ')'
        modify fun state => { state with modes := outer }
        return some inner
      if ← skipIf '?' then do
        if ← skipIf 'P' then do
          expect '<'
          readGroupName
          closeGroup
        else if (← peek) == some '<' then do
          skip 1
          readGroupName
          closeGroup
        else do
          let empty := (← peek) == some ')'
          let modes ← readModes fuel true outer
          modify fun state => { state with modes }
          if ← skipIf ':' then closeGroup
          else do
            expect ')'
            if empty then failure else return none
      else closeGroup

def readItem : Nat → Reader Pattern
  | 0 => failure
  | fuel + 1 => do
      let modes := (← get).modes
      match ← next with
      | '.' => return dot modes
      | '^' => return .assertion (if modes.multiLine then .lineStart else .textStart)
      | '$' => return .assertion (if modes.multiLine then .lineEnd else .textEnd)
      | '[' => return .one (← readClass fuel)
      | '\\' => do
          match ← readEscape with
          | .literal c => return .one (single modes c)
          | .set set => return .one set
          | .assertion condition => return .assertion condition
      | '*' | '+' | '?' | '{' => failure
      | c => return .one (single modes c)

end

/-- The pattern that a text writes. -/
def ofText? (text : String) : Option Pattern :=
  let chars := text.toList
  match readChoice (4 * chars.length + 4) ⟨chars, {}⟩ with
  | some (pattern, state) => if state.chars.isEmpty then some pattern else none
  | none => none

end CreatorMigration.Pattern
