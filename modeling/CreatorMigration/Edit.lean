import CreatorMigration.Ordered
import CreatorMigration.Text.Basic

/-! # Edits

An `Edit` replaces a span of a text. A batch of edits is computed against one snapshot of the text,
so all spans of a batch speak of the text before the batch.

* `Edit.applyAll` applies a batch, or names the first fault of it.
* `Edit.outermost` keeps the widest of the edits that get in each other's way.
* `Edit.changes` drops the edits that would write what is already there.
-/

namespace CreatorMigration

structure Edit where
  span : Span
  replacement : String
deriving DecidableEq, Inhabited

namespace Edit

def insert (offset : Nat) (text : String) : Edit := ⟨Span.point offset, text⟩

def delete (span : Span) : Edit := ⟨span, ""⟩

def contains (outer inner : Edit) : Bool := outer.span.contains inner.span

def overlaps (left right : Edit) : Bool := left.span.overlaps right.span

/-- Why a batch cannot be applied. -/
inductive Fault where
  /-- The span leaves the text of `size` bytes, runs backwards or splits a character. -/
  | outOfBounds (span : Span) (size : Nat)
  /-- Two spans of the batch share bytes. -/
  | overlapping (first second : Span)
deriving DecidableEq

/-! ## Applying a batch -/

def inBounds (text : String) (edit : Edit) : Bool :=
  decide (edit.span.start ≤ edit.span.stop) && decide (edit.span.stop ≤ Text.size text) &&
    Text.isBoundary text edit.span.start && Text.isBoundary text edit.span.stop

/-- The order in which a batch is spliced in; edits of one span keep their order in the batch. -/
def precedes (left right : Edit) : Bool :=
  decide (left.span.start < right.span.start) ||
    (decide (left.span.start = right.span.start) && decide (left.span.stop ≤ right.span.stop))

/-- The first two neighbours of which one stops behind the start of the other. -/
def findOverlap : List Edit → Option (Edit × Edit)
  | first :: second :: rest =>
      if first.span.stop > second.span.start then some (first, second)
      else findOverlap (second :: rest)
  | _ => none

/-- Copies `text` from `offset` on, with the ordered edits put in. -/
def splice (text : String) : Nat → List Edit → String
  | offset, [] => Text.slice text ⟨offset, Text.size text⟩
  | offset, edit :: rest =>
      Text.slice text ⟨offset, edit.span.start⟩ ++ edit.replacement ++
        splice text edit.span.stop rest

def applyAll (text : String) (edits : List Edit) : Except Fault String :=
  match edits.find? (fun edit => !inBounds text edit) with
  | some edit => .error (.outOfBounds edit.span (Text.size text))
  | none =>
      let ordered := Ordered.sort precedes edits
      match findOverlap ordered with
      | some (first, second) => .error (.overlapping first.span second.span)
      | none => .ok (splice text 0 ordered)

/-! ## Choosing edits -/

/-- By start, and of those with one start the widest first. -/
def widerFirst (left right : Edit) : Bool :=
  decide (left.span.start < right.span.start) ||
    (decide (left.span.start = right.span.start) && decide (right.span.stop ≤ left.span.stop))

def clashes (kept edit : Edit) : Bool := kept.overlaps edit || decide (kept.span = edit.span)

def keepClear : List Edit → List Edit → List Edit
  | kept, [] => kept
  | kept, edit :: rest =>
      if kept.any (clashes · edit) then keepClear kept rest else keepClear (kept ++ [edit]) rest

/-- Keeps each edit that overlaps no wider one kept before it. -/
def outermost (edits : List Edit) : List Edit :=
  keepClear [] (Ordered.sort widerFirst edits)

/-- Whether the edit writes something else than the text it replaces. -/
def changes (text : String) (edit : Edit) : Bool :=
  Text.slice text edit.span != edit.replacement

end Edit

end CreatorMigration
