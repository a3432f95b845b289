/-! # Spans

A `Span` is a half-open range of byte offsets into the UTF-8 form of a text.

* `contains` and `overlaps` are Boolean tests, decided for every pair of edits of a batch.
* `Span.render` is the form used by messages: `2..9`.
-/

namespace CreatorMigration

/-- A half-open range of byte offsets. -/
structure Span where
  start : Nat
  stop : Nat
deriving DecidableEq, Inhabited

namespace Span

/-- The empty range at an offset. -/
def point (offset : Nat) : Span := ⟨offset, offset⟩

def contains (outer inner : Span) : Bool :=
  decide (outer.start ≤ inner.start) && decide (inner.stop ≤ outer.stop)

/-- Two ranges overlap when each starts before the other stops. -/
def overlaps (left right : Span) : Bool :=
  decide (left.start < right.stop) && decide (right.start < left.stop)

/-- The smallest range from the start of one to the stop of another. -/
def through (first last : Span) : Span := ⟨first.start, last.stop⟩

def render (span : Span) : String :=
  toString span.start ++ ".." ++ toString span.stop

end Span

end CreatorMigration
