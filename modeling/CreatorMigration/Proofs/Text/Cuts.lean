import CreatorMigration.Text.Basic
import Mathlib.Data.String.Basic

/-! # Cuts of a text

An offset that splits no character cuts the characters of a text in two. `Span.IsIn` holds of the
spans whose bytes are characters of a text; these are the spans that an edit may have.
-/

namespace CreatorMigration

open String (utf8Len)

namespace Text

theorem size_eq (text : String) : size text = utf8Len text.toList :=
  (String.utf8Len_toList text).symm

theorem eq_empty_of_size {text : String} (none : size text = 0) : text = "" := by
  rw [size_eq, String.utf8Len_eq_zero] at none
  exact String.toList_eq_nil_iff.1 none

theorem isBoundary_iff {text : String} {offset : Nat} :
    isBoundary text offset = true ↔
      ∃ front back, text.toList = front ++ back ∧ utf8Len front = offset := by
  rw [isBoundary, String.Pos.Raw.isValid_eq_true_iff, String.Pos.Raw.isValid_iff_exists_append]
  constructor
  · rintro ⟨front, back, rfl, stop⟩
    refine ⟨front.toList, back.toList, String.toList_append, ?_⟩
    rw [← size_eq]
    exact (congrArg String.Pos.Raw.byteIdx stop).symm
  · rintro ⟨front, back, chars, rfl⟩
    refine ⟨String.ofList front, String.ofList back, ?_, ?_⟩
    · rw [← String.ofList_append, ← chars, String.ofList_toList]
    · rw [String.rawEndPos_ofList]

theorem isBoundary_zero (text : String) : isBoundary text 0 = true :=
  isBoundary_iff.2 ⟨[], text.toList, rfl, rfl⟩

theorem isBoundary_size (text : String) : isBoundary text (size text) = true :=
  isBoundary_iff.2 ⟨text.toList, [], (List.append_nil _).symm, (size_eq text).symm⟩

theorem le_size_of_isBoundary {text : String} {offset : Nat}
    (boundary : isBoundary text offset = true) : offset ≤ size text := by
  obtain ⟨front, back, chars, rfl⟩ := isBoundary_iff.1 boundary
  rw [size_eq, chars, String.utf8Len_append]
  exact Nat.le_add_right _ _

theorem slice_eq {text : String} {front middle back : List Char}
    (chars : text.toList = front ++ middle ++ back) :
    slice text ⟨utf8Len front, utf8Len front + utf8Len middle⟩ = String.ofList middle := by
  have whole : text = String.ofList (front ++ middle ++ back) := by
    rw [← chars, String.ofList_toList]
  rw [slice, whole, String.extract_of_valid]

theorem slice_zero {text : String} {front back : List Char} (chars : text.toList = front ++ back) :
    slice text ⟨0, utf8Len front⟩ = String.ofList front := by
  have parts : text.toList = [] ++ front ++ back := chars
  simpa using slice_eq parts

theorem slice_size {text : String} {front back : List Char} (chars : text.toList = front ++ back) :
    slice text ⟨utf8Len front, size text⟩ = String.ofList back := by
  have parts : text.toList = front ++ back ++ [] := by rw [chars, List.append_nil]
  rw [size_eq, chars, String.utf8Len_append]
  exact slice_eq parts

theorem slice_point (text : String) (offset : Nat) : slice text (Span.point offset) = "" := by
  simp [slice, Span.point, String.Pos.Raw.extract]

/-- Of two cuts of one text the one with fewer bytes in front of it comes first. -/
theorem prefix_of_utf8Len_le {front back longer rest : List Char}
    (same : front ++ back = longer ++ rest) (fewer : utf8Len front ≤ utf8Len longer) :
    front <+: longer := by
  rcases List.append_eq_append_iff.1 same with ⟨between, rfl, _⟩ | ⟨between, rfl, _⟩
  · exact List.prefix_append front between
  · have none : between = [] := by
      rw [String.utf8Len_append] at fewer
      exact String.utf8Len_eq_zero.1 (by omega)
    simp [none]

end Text

/-! ## Spans -/

namespace Span

/-- The span runs forwards inside a text and splits no character. -/
structure IsIn (span : Span) (text : String) : Prop where
  ordered : span.start ≤ span.stop
  start_isBoundary : Text.isBoundary text span.start = true
  stop_isBoundary : Text.isBoundary text span.stop = true

variable {text : String} {span : Span}

theorem isIn_point {offset : Nat} (boundary : Text.isBoundary text offset = true) :
    (point offset).IsIn text :=
  ⟨Nat.le_refl _, boundary, boundary⟩

theorem IsIn.stop_le (placed : span.IsIn text) : span.stop ≤ Text.size text :=
  Text.le_size_of_isBoundary placed.stop_isBoundary

theorem isIn_iff_exists :
    span.IsIn text ↔ ∃ front middle back, text.toList = front ++ middle ++ back ∧
      span = ⟨utf8Len front, utf8Len front + utf8Len middle⟩ := by
  obtain ⟨start, stop⟩ := span
  constructor
  · rintro ⟨ordered, startBoundary, stopBoundary⟩
    obtain ⟨front, rest, chars, rfl⟩ := Text.isBoundary_iff.1 startBoundary
    obtain ⟨longer, back, charsThen, rfl⟩ := Text.isBoundary_iff.1 stopBoundary
    obtain ⟨middle, rfl⟩ := Text.prefix_of_utf8Len_le (chars.symm.trans charsThen) ordered
    exact ⟨front, middle, back, charsThen, by rw [String.utf8Len_append]⟩
  · rintro ⟨front, middle, back, chars, same⟩
    cases same
    refine ⟨Nat.le_add_right _ _, Text.isBoundary_iff.2 ⟨front, middle ++ back, ?_, rfl⟩,
      Text.isBoundary_iff.2 ⟨front ++ middle, back, chars, String.utf8Len_append _ _⟩⟩
    rw [chars, List.append_assoc]

theorem IsIn.size_slice (isIn : span.IsIn text) :
    Text.size (Text.slice text span) = span.stop - span.start := by
  obtain ⟨front, middle, back, chars, rfl⟩ := isIn_iff_exists.1 isIn
  rw [Text.slice_eq chars, Text.size_eq, String.toList_ofList, Nat.add_sub_cancel_left]

/-- Two spans one behind the other, with what stands around and between them. -/
theorem exists_parts {first second : Span} (firstIn : first.IsIn text) (secondIn : second.IsIn text)
    (behind : first.stop ≤ second.start) :
    ∃ front inFirst between inSecond back,
      text.toList = front ++ inFirst ++ between ++ inSecond ++ back ∧
      first = ⟨utf8Len front, utf8Len front + utf8Len inFirst⟩ ∧
      second = ⟨utf8Len (front ++ inFirst ++ between),
        utf8Len (front ++ inFirst ++ between) + utf8Len inSecond⟩ := by
  obtain ⟨front, inFirst, rest, chars, rfl⟩ := isIn_iff_exists.1 firstIn
  obtain ⟨longer, inSecond, back, charsThen, rfl⟩ := isIn_iff_exists.1 secondIn
  rw [List.append_assoc longer] at charsThen
  obtain ⟨between, rfl⟩ := Text.prefix_of_utf8Len_le (chars.symm.trans charsThen)
    (by rw [String.utf8Len_append]; exact behind)
  exact ⟨front, inFirst, between, inSecond, back, by simpa using charsThen, rfl, rfl⟩

/-- What reaches from one span to a later one is in the text as they are. -/
theorem IsIn.through {later : Span} (placed : span.IsIn text) (placedLater : later.IsIn text)
    (inOrder : span.stop ≤ later.stop) : (span.through later).IsIn text :=
  ⟨placed.ordered.trans inOrder, placed.start_isBoundary, placedLater.stop_isBoundary⟩

theorem eq_of_offsets {left right : Span} (start : left.start = right.start)
    (stop : left.stop = right.stop) : left = right := by
  cases left
  cases right
  exact congrArg₂ Span.mk start stop

theorem contains_iff {outer inner : Span} :
    outer.contains inner = true ↔ outer.start ≤ inner.start ∧ inner.stop ≤ outer.stop := by
  simp [contains]

theorem overlaps_comm (left right : Span) : left.overlaps right = right.overlaps left :=
  Bool.and_comm _ _

theorem overlaps_eq_false_iff {left right : Span} :
    left.overlaps right = false ↔ right.stop ≤ left.start ∨ left.stop ≤ right.start := by
  simp [overlaps, or_iff_not_imp_left]

/-! ## Spans in order -/

/-- Spans of a text that stand one behind the other between two offsets. -/
def InOrder (text : String) (lower upper : Nat) : List Span → Prop
  | [] => lower ≤ upper
  | first :: rest => lower ≤ first.start ∧ first.IsIn text ∧ InOrder text first.stop upper rest

namespace InOrder

variable {lower upper : Nat} {spans later : List Span}

theorem le (placed : InOrder text lower upper spans) : lower ≤ upper := by
  induction spans generalizing lower with
  | nil => exact placed
  | cons first rest inductionHypothesis =>
    obtain ⟨behind, inText, others⟩ := placed
    exact behind.trans (inText.ordered.trans (inductionHypothesis others))

theorem from_le {earlier : Nat} (placed : InOrder text lower upper spans)
    (above : earlier ≤ lower) : InOrder text earlier upper spans := by
  cases spans with
  | nil => exact above.trans placed
  | cons first rest => exact ⟨above.trans placed.1, placed.2⟩

theorem append {middle : Nat} (placed : InOrder text lower middle spans)
    (placedLater : InOrder text middle upper later) :
    InOrder text lower upper (spans ++ later) := by
  induction spans generalizing lower with
  | nil => exact placedLater.from_le placed
  | cons first rest inductionHypothesis =>
    exact ⟨placed.1, placed.2.1, inductionHypothesis placed.2.2⟩

theorem to_le {further : Nat} (placed : InOrder text lower upper spans)
    (below : upper ≤ further) : InOrder text lower further spans := by
  have nothing : InOrder text upper further [] := below
  have joined := placed.append nothing
  rwa [List.append_nil] at joined

theorem exists_of_append (placed : InOrder text lower upper (spans ++ later)) :
    ∃ middle, InOrder text lower middle spans ∧ InOrder text middle upper later := by
  induction spans generalizing lower with
  | nil => exact ⟨lower, Nat.le_refl _, placed⟩
  | cons first rest inductionHypothesis =>
    obtain ⟨middle, front, back⟩ := inductionHypothesis placed.2.2
    exact ⟨middle, ⟨placed.1, placed.2.1, front⟩, back⟩

theorem isIn (placed : InOrder text lower upper spans) (member : span ∈ spans) :
    lower ≤ span.start ∧ span.IsIn text ∧ span.stop ≤ upper := by
  obtain ⟨front, back, rfl⟩ := List.append_of_mem member
  obtain ⟨middle, before, here⟩ := placed.exists_of_append
  exact ⟨before.le.trans here.1, here.2.1, here.2.2.le⟩

/-- Spans in order stop where the last of them does. -/
theorem to_getLast (placed : InOrder text lower upper spans) (nonempty : spans ≠ []) :
    InOrder text lower (spans.getLast nonempty).stop spans ∧
      (spans.getLast nonempty).stop ≤ upper := by
  have split := List.dropLast_concat_getLast nonempty
  generalize spans.getLast nonempty = last at split
  rw [← split] at placed
  obtain ⟨middle, front, back⟩ := placed.exists_of_append
  refine ⟨?_, back.2.2⟩
  rw [← split]
  exact front.append ⟨back.1, back.2.1, Nat.le_refl _⟩

theorem sublist (placed : InOrder text lower upper spans) (part : later.Sublist spans) :
    InOrder text lower upper later := by
  induction part generalizing lower with
  | slnil => exact placed
  | cons first _ inductionHypothesis =>
    exact (inductionHypothesis placed.2.2).from_le (placed.1.trans placed.2.1.ordered)
  | cons_cons first _ inductionHypothesis =>
    exact ⟨placed.1, placed.2.1, inductionHypothesis placed.2.2⟩

theorem pairwise (placed : InOrder text lower upper spans) :
    spans.Pairwise fun first second => first.stop ≤ second.start := by
  induction spans generalizing lower with
  | nil => exact .nil
  | cons first rest inductionHypothesis =>
    exact .cons (fun _ member => (placed.2.2.isIn member).1) (inductionHypothesis placed.2.2)

end InOrder

end Span

end CreatorMigration
