import CreatorMigration.Proofs.Text.Cuts
import CreatorMigration.Unit.Removal
import Mathlib.Data.List.TakeWhile

/-! # What a removal covers

A removal grows from the span of a statement over blanks, semicolons and line feeds, so it ends in
the bounds of the text. `SourceUnit.removals_apart` says that the removals of two statements do not
meet when anything else stands between the statements.
-/

namespace CreatorMigration

open String (utf8Len)

namespace SourceUnit

/-! ## Widening a span -/

/-- The characters around a statement that its removal may cover. -/
def isSpacing (c : Char) : Bool := isLineRest c || c == '\n'

theorem isSpacing_lineFeed : ∀ c ∈ ['\n'], isSpacing c = true := by
  simp [isSpacing]

/-- A way of widening spans by spacing in front of them and behind them. -/
def Widens (text : String) (widen : Span → Span) : Prop :=
  ∀ front middle back, text.toList = front ++ middle ++ back →
    ∃ kept lead trail rest, front = kept ++ lead ∧ back = trail ++ rest ∧
      (∀ c ∈ lead ++ trail, isSpacing c = true) ∧
      widen ⟨utf8Len front, utf8Len front + utf8Len middle⟩ =
        ⟨utf8Len kept, utf8Len kept + utf8Len (lead ++ middle ++ trail)⟩

/-- Spacing is one byte wide. -/
theorem utf8Len_eq_length {chars : List Char} (spacing : ∀ c ∈ chars, isSpacing c = true) :
    utf8Len chars = chars.length := by
  induction chars with
  | nil => rfl
  | cons c rest inductionHypothesis =>
    obtain ⟨first, others⟩ := List.forall_mem_cons.1 spacing
    have size : c.utf8Size = 1 := by
      simp only [isSpacing, isLineRest, isIndent, Bool.or_eq_true, beq_iff_eq] at first
      rcases first with ((rfl | rfl) | rfl) | rfl <;> rfl
    rw [String.utf8Len_cons, inductionHypothesis others, size, List.length_cons]

theorem Widens.comp {text : String} {widen widenMore : Span → Span} (first : Widens text widen)
    (second : Widens text widenMore) : Widens text fun span => widenMore (widen span) := by
  intro front middle back chars
  obtain ⟨kept, lead, trail, rest, rfl, rfl, spacing, widened⟩ := first front middle back chars
  obtain ⟨keptThen, leadThen, trailThen, restThen, rfl, rfl, spacingThen, widenedThen⟩ :=
    second kept (lead ++ middle ++ trail) rest (by simpa using chars)
  refine ⟨keptThen, leadThen ++ lead, trail ++ trailThen, restThen, by simp, by simp, ?_, ?_⟩
  · intro c member
    simp only [List.mem_append] at member spacing spacingThen
    grind
  · dsimp only
    rw [widened, widenedThen]
    simp

section

variable {text : String} {front middle back : List Char}
  (chars : text.toList = front ++ middle ++ back)

include chars

theorem toList_slice_before : (Text.slice text ⟨0, utf8Len front⟩).toList = front := by
  rw [Text.slice_zero (by rw [chars, List.append_assoc]), String.toList_ofList]

theorem toList_slice_behind :
    (Text.slice text ⟨utf8Len front + utf8Len middle, Text.size text⟩).toList = back := by
  rw [← String.utf8Len_append, Text.slice_size chars, String.toList_ofList]

end

/-- A line feed in front of some characters. -/
theorem exists_lineFeed (chars : List Char) :
    ∃ feed rest, chars = feed ++ rest ∧ (∀ c ∈ feed, isSpacing c = true) ∧
      utf8Len feed = if chars.head? = some '\n' then 1 else 0 := by
  by_cases feeds : chars.head? = some '\n'
  · obtain ⟨rest, rfl⟩ := List.head?_eq_some_iff.1 feeds
    exact ⟨['\n'], rest, rfl, isSpacing_lineFeed, rfl⟩
  · exact ⟨[], chars, rfl, by simp, by simp [feeds]⟩

theorem widens_wholeLines (text : String) : Widens text (wholeLines text) := by
  intro front middle back chars
  have splitFront := List.takeWhile_append_dropWhile (p := isIndent) (l := front.reverse)
  have splitBack := List.takeWhile_append_dropWhile (p := isLineRest) (l := back)
  have dropped : back.drop (back.takeWhile isLineRest).length = back.dropWhile isLineRest :=
    (congrArg (List.drop _) splitBack).symm.trans List.drop_left
  have indent : ∀ c ∈ front.reverse.takeWhile isIndent, isSpacing c = true := fun c member => by
    simp [isSpacing, isLineRest, List.mem_takeWhile_imp member]
  have lineRest : ∀ c ∈ back.takeWhile isLineRest, isSpacing c = true := fun c member => by
    simp [isSpacing, List.mem_takeWhile_imp member]
  rw [wholeLines, toList_slice_before chars, toList_slice_behind chars, dropped]
  generalize front.reverse.takeWhile isIndent = lead at *
  generalize back.takeWhile isLineRest = trail at *
  generalize front.reverse.dropWhile isIndent = kept at *
  generalize back.dropWhile isLineRest = left at *
  obtain rfl : kept.reverse ++ lead.reverse = front := by
    rw [← List.reverse_append, splitFront, List.reverse_reverse]
  obtain rfl := splitBack
  obtain ⟨feed, rest, split, feeds, width⟩ := exists_lineFeed left
  refine ⟨kept.reverse, lead.reverse, trail ++ feed, rest, rfl, by simp [split], ?_, ?_⟩
  · simp only [List.mem_append, List.mem_reverse]
    rintro c (member | member | member)
    · exact indent c member
    · exact lineRest c member
    · exact feeds c member
  · dsimp only
    rw [← width, ← utf8Len_eq_length indent, ← utf8Len_eq_length lineRest, Span.mk.injEq]
    simp only [String.utf8Len_append, String.utf8Len_reverse]
    omega

theorem widens_joinBlankLines (text : String) : Widens text (joinBlankLines text) := by
  intro front middle back chars
  rw [joinBlankLines, toList_slice_before chars, toList_slice_behind chars]
  dsimp only
  split
  · next blank =>
    have feeds := of_decide_eq_true (Bool.and_eq_true_iff.1 blank).2
    obtain ⟨rest, rfl⟩ := List.head?_eq_some_iff.1 feeds
    refine ⟨front, [], ['\n'], rest, by simp, rfl, isSpacing_lineFeed, ?_⟩
    rw [List.nil_append, String.utf8Len_append, Nat.add_assoc]
    rfl
  · split
    · next blank =>
      obtain ⟨more, reversed⟩ := List.isPrefixOf_iff_prefix.1 (Bool.and_eq_true_iff.1 blank).2
      obtain rfl : more.reverse ++ ['\n'] ++ ['\n'] = front := by
        rw [← List.reverse_reverse front, ← reversed]
        simp
      refine ⟨more.reverse ++ ['\n'], ['\n'], [], back, rfl, rfl, isSpacing_lineFeed, ?_⟩
      have size : utf8Len ['\n'] = 1 := rfl
      simp only [String.utf8Len_append, String.utf8Len_nil, size, Span.mk.injEq]
      omega
    · exact ⟨front, [], [], back, by simp, by simp, by simp, by simp⟩

/-- The removal of a span covers spacing besides it. -/
theorem widens_removalSpanOf (unit : SourceUnit) : Widens unit.text unit.removalSpanOf :=
  (widens_wholeLines unit.text).comp (widens_joinBlankLines unit.text)

theorem isIn_removalSpanOf {unit : SourceUnit} {span : Span} (isIn : span.IsIn unit.text) :
    (unit.removalSpanOf span).IsIn unit.text := by
  obtain ⟨front, middle, back, chars, rfl⟩ := Span.isIn_iff_exists.1 isIn
  obtain ⟨kept, lead, trail, rest, rfl, rfl, _, widened⟩ :=
    widens_removalSpanOf unit front middle back chars
  rw [widened]
  exact Span.isIn_iff_exists.2 ⟨kept, lead ++ middle ++ trail, rest, by simp [chars], rfl⟩

/-! ## Removals that do not meet -/

/-- Characters in front of a cut stop in front of what is not one of them. -/
theorem utf8Len_le_of_spacing {trail rest front behind : List Char} {c : Char}
    (spacing : ∀ c ∈ trail, isSpacing c = true) (solid : isSpacing c = false)
    (split : trail ++ rest = front ++ c :: behind) : utf8Len trail ≤ utf8Len front := by
  rcases List.append_eq_append_iff.1 split with ⟨more, rfl, _⟩ | ⟨more, rfl, others⟩
  · rw [String.utf8Len_append]
    exact Nat.le_add_right _ _
  · cases more with
    | nil => simp
    | cons d more =>
      obtain ⟨rfl, _⟩ := List.cons.inj others
      exact absurd (spacing c (by simp)) (by simp [solid])

/-- One span stands behind another one, with more than spacing between them. -/
def IsApart (unit : SourceUnit) (first second : Span) : Prop :=
  first.stop ≤ second.start ∧
    ∃ c ∈ (unit.slice ⟨first.stop, second.start⟩).toList, isSpacing c = false

/-- Removals meet only over spacing: where anything else stands between two spans, the removal of
the first one stops before that of the second one starts. -/
theorem removals_apart {unit : SourceUnit} {first second : Span} (firstIn : first.IsIn unit.text)
    (secondIn : second.IsIn unit.text) (apart : unit.IsApart first second) :
    (unit.removalSpanOf first).stop ≤ (unit.removalSpanOf second).start := by
  obtain ⟨behind, c, separator, solid⟩ := apart
  obtain ⟨front, inFirst, between, inSecond, back, chars, rfl, rfl⟩ :=
    Span.exists_parts firstIn secondIn behind
  have sliced : unit.slice ⟨utf8Len front + utf8Len inFirst,
      utf8Len (front ++ inFirst ++ between)⟩ = String.ofList between := by
    rw [← String.utf8Len_append, String.utf8Len_append (front ++ inFirst)]
    exact Text.slice_eq (by rw [chars, List.append_assoc _ inSecond])
  rw [sliced, String.toList_ofList] at separator
  obtain ⟨before, after, rfl⟩ := List.append_of_mem separator
  obtain ⟨kept, lead, trail, rest, rfl, splitBehind, spacing, widened⟩ :=
    widens_removalSpanOf unit front inFirst (before ++ c :: after ++ inSecond ++ back)
      (by simpa using chars)
  obtain ⟨keptThen, leadThen, trailThen, restThen, splitFront, rfl, spacingThen, widenedThen⟩ :=
    widens_removalSpanOf unit _ inSecond back chars
  have stops := utf8Len_le_of_spacing (fun c member => spacing c (List.mem_append_right _ member))
    solid (by simpa using splitBehind.symm)
  -- the same in front of the second span, read backwards
  have reversed : leadThen.reverse ++ keptThen.reverse =
      after.reverse ++ c :: (kept ++ lead ++ inFirst ++ before).reverse := by
    rw [← List.reverse_append, ← splitFront]
    simp
  have starts := utf8Len_le_of_spacing
    (fun c member => spacingThen c (List.mem_append_left _ (List.mem_reverse.1 member))) solid
    reversed
  have whole := congrArg utf8Len splitFront
  rw [widened, widenedThen]
  simp only [String.utf8Len_append, String.utf8Len_cons, String.utf8Len_reverse] at *
  omega

end SourceUnit

end CreatorMigration
