import CreatorMigration.Text.Basic
import CreatorMigration.Text.Classes

/-! # Patterns

Regular expressions over texts. A pattern matches a text when it matches any part of it.

* `Pattern.run` gives every offset at which a match that starts at an offset can end.
* `Pattern.occursIn` searches a text for a match.
-/

namespace CreatorMigration

/-- A set of characters. -/
inductive CharSet where
  | range (low high : Char)
  /-- A range with the partners of the other case. -/
  | foldedRange (low high : Char)
  | digit
  | space
  | wordPart
  | upper
  | lower
  | letter
  | nothing
  | union (left right : CharSet)
  | intersection (left right : CharSet)
  | complement (inner : CharSet)

namespace CharSet

def inRange (low high c : Char) : Bool := decide (low ≤ c) && decide (c ≤ high)

def contains : CharSet → Char → Bool
  | range low high, c => inRange low high c
  | foldedRange low high, c => (Text.caseVariants c).any (inRange low high)
  | digit, c => Text.isDecimalDigit c
  | space, c => Text.isBlank c
  | wordPart, c => Text.isWordPart c
  | upper, c => Text.isUpperLetter c
  | lower, c => Text.isLowerLetter c
  | letter, c => Text.isWordPart c && !Text.isDecimalDigit c && c != '_'
  | nothing, _ => false
  | union left right, c => left.contains c || right.contains c
  | intersection left right, c => left.contains c && right.contains c
  | complement inner, c => !inner.contains c

end CharSet

/-- A condition on an offset, which takes no characters. -/
inductive Assertion where
  | textStart
  | textEnd
  | lineStart
  | lineEnd
  | wordEdge
  | noWordEdge
  | wordStart
  | wordEnd

inductive Pattern where
  | empty
  | one (set : CharSet)
  | assertion (condition : Assertion)
  | sequence (first second : Pattern)
  | choice (left right : Pattern)
  /-- At least `least` and, if there is a bound, at most `most` matches in a row. -/
  | repeated (inner : Pattern) (least : Nat) (most : Option Nat)

namespace Pattern

/-! ## Matching -/

def holdsAt (text : Array Char) (offset : Nat) : Assertion → Bool
  | .textStart => offset == 0
  | .textEnd => offset == text.size
  | .lineStart => offset == 0 || text[offset - 1]? == some '\n'
  | .lineEnd => offset == text.size || text[offset]? == some '\n'
  | .wordEdge => wordBefore != wordBehind
  | .noWordEdge => wordBefore == wordBehind
  | .wordStart => !wordBefore && wordBehind
  | .wordEnd => wordBefore && !wordBehind
where
  wordBefore : Bool := decide (0 < offset) && text[offset - 1]?.any Text.isWordPart
  wordBehind : Bool := text[offset]?.any Text.isWordPart

/-- The offsets reached by `count` steps, each from any of the offsets reached before. -/
def steps (step : Nat → List Nat) : Nat → List Nat → List Nat
  | 0, offsets => offsets
  | count + 1, offsets => steps step count (offsets.flatMap step).eraseDups

/-- The offsets reached by at most `count` steps. -/
def stepsUpTo (step : Nat → List Nat) : Nat → List Nat → List Nat
  | 0, reached => reached
  | count + 1, reached => stepsUpTo step count (reached ++ reached.flatMap step).eraseDups

/-- The offsets at which a match can end that starts at the given offset. -/
def run (text : Array Char) : Pattern → Nat → List Nat
  | empty, offset => [offset]
  | one set, offset =>
      match text[offset]? with
      | some c => if set.contains c then [offset + 1] else []
      | none => []
  | assertion condition, offset => if holdsAt text offset condition then [offset] else []
  | sequence first second, offset => ((run text first offset).flatMap (run text second)).eraseDups
  | choice left right, offset => (run text left offset ++ run text right offset).eraseDups
  | repeated inner least most, offset =>
      let more := match most with
        | some bound => min (bound - least) (text.size + 1)
        | none => text.size + 1
      stepsUpTo (run text inner) more (steps (run text inner) least [offset])

def occursIn (pattern : Pattern) (text : String) : Bool :=
  let chars := text.toList.toArray
  (List.range (chars.size + 1)).any fun offset => !(pattern.run chars offset).isEmpty

end Pattern

end CreatorMigration
