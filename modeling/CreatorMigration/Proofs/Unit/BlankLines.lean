import CreatorMigration.Proofs.Edit.Splice
import CreatorMigration.Proofs.Unit.Crowding

/-! # Blank lines around a removal

A removal takes spacing on both sides of its span, and of the line feeds there just as many as keep
two blank lines from coming together.

* `SourceUnit.keptAbove` and `SourceUnit.leftBelow` are what a removal leaves on its two sides.
* `SourceUnit.widensSafely_removalSpanOf` says what a removal takes besides its span, and that a
  text without two blank lines in a row has none behind it.
-/

namespace CreatorMigration

open String (utf8Len)

namespace SourceUnit

/-! ## Where the two sides meet -/

/-- Two blank lines in a row. -/
def blankLines : List Char := ['\n', '\n', '\n']

theorem utf8Len_replicate_lineFeed (count : Nat) :
    utf8Len (List.replicate count '\n') = count := by
  rw [utf8Len_eq_length fun c member => ?_, List.length_replicate]
  rw [List.eq_of_mem_replicate member]
  decide

/-- What a removal leaves above itself. -/
def keptAbove (kept rest : List Char) : List Char :=
  kept.take (kept.length - feedsAbove kept rest)

/-- What a removal leaves below itself. -/
def leftBelow (kept rest : List Char) : List Char := rest.drop (feedsBelow kept rest)

theorem keptAbove_append (kept rest : List Char) :
    keptAbove kept rest ++ List.replicate (feedsAbove kept rest) '\n' = kept := by
  unfold keptAbove feedsAbove
  split
  · next above =>
    obtain ⟨left, rfl⟩ := above.2
    have one : left ++ ['\n', '\n'] = (left ++ ['\n']) ++ ['\n'] := by simp
    have length : (left ++ ['\n', '\n']).length - 1 = (left ++ ['\n']).length := by simp
    rw [length, one, List.take_left]
    rfl
  · rw [Nat.sub_zero, List.take_length, List.replicate_zero, List.append_nil]

theorem feedsBelow_le_two (kept rest : List Char) : feedsBelow kept rest ≤ 2 := by
  unfold feedsBelow
  split <;> split <;> omega

theorem replicate_append_leftBelow (kept rest : List Char) :
    List.replicate (feedsBelow kept rest) '\n' ++ leftBelow kept rest = rest := by
  by_cases feeds : rest.head? = some '\n'
  · obtain ⟨left, rfl⟩ := List.head?_eq_some_iff.1 feeds
    rw [leftBelow, feedsBelow_lineFeed]
    by_cases second : OpensBlock kept ∧ left.head? = some '\n'
    · obtain ⟨more, rfl⟩ := List.head?_eq_some_iff.1 second.2
      rw [if_pos second]
      rfl
    · rw [if_neg second]
      rfl
  · rw [leftBelow, feedsBelow_of_head feeds]
    rfl

/-- Two blank lines where two texts meet are in one of them or reach over both. -/
theorem blankLines_infix_append {above below : List Char} (both : blankLines <:+: above ++ below) :
    blankLines <:+: above ∨ blankLines <:+: below ∨
      ['\n', '\n'] <+: below ∨ ['\n', '\n'] <:+ above ∧ ['\n'] <+: below := by
  rcases List.infix_append_iff.1 both with inAbove | inBelow | ⟨ends, starts, split, isEnd, isStart⟩
  · exact .inl inAbove
  · exact .inr (.inl inBelow)
  · match ends with
    | [] => exact .inr (.inl (split ▸ isStart.isInfix))
    | [_] => exact .inr (.inr (.inl ((List.cons.inj split).2 ▸ isStart)))
    | [_, _] =>
      obtain ⟨rfl, rfl, rfl⟩ : '\n' = _ ∧ '\n' = _ ∧ ['\n'] = starts := by
        simpa [blankLines] using split
      exact .inr (.inr (.inr ⟨isEnd, isStart⟩))
    | first :: second :: third :: more =>
      simp only [blankLines, List.cons_append, List.cons.injEq, List.nil_eq,
        List.append_eq_nil_iff] at split
      obtain ⟨rfl, rfl, rfl, rfl, -⟩ := split
      exact .inl isEnd.isInfix

section

variable {kept rest : List Char}

/-- Where a blank line is left above, no line feed was taken there. -/
theorem opensBlock_of_keptAbove (free : ¬ blankLines <:+: kept)
    (blank : ['\n', '\n'] <:+ keptAbove kept rest) : OpensBlock kept := by
  obtain ⟨more, found⟩ := blank
  have split := keptAbove_append kept rest
  rw [← found] at split
  rcases Nat.le_one_iff_eq_zero_or_eq_one.1 (feedsAbove_le_one kept rest) with none | one
  · rw [none, List.replicate_zero, List.append_nil] at split
    exact .inr ⟨more, split⟩
  · rw [one, List.append_assoc] at split
    exact absurd (List.IsSuffix.isInfix ⟨more, split⟩) free

theorem feedsBelow_pos (feeds : ['\n'] <+: leftBelow kept rest) : 1 ≤ feedsBelow kept rest := by
  by_contra none
  have split := replicate_append_leftBelow kept rest
  rw [Nat.lt_one_iff.1 (Nat.lt_of_not_le none), List.replicate_zero, List.nil_append] at split
  obtain ⟨more, found⟩ := split ▸ feeds
  rw [← found, List.singleton_append, feedsBelow_lineFeed] at none
  omega

theorem not_blankLine_leftBelow (free : ¬ blankLines <:+: rest) :
    ¬ ['\n', '\n'] <+: leftBelow kept rest := by
  intro blank
  obtain ⟨fewer, taken⟩ := Nat.exists_eq_add_of_le'
    (feedsBelow_pos ((List.prefix_append ['\n'] ['\n']).trans blank))
  obtain ⟨more, found⟩ := blank
  have split := replicate_append_leftBelow kept rest
  rw [← found, taken, List.replicate_succ', List.append_assoc] at split
  exact free ⟨List.replicate fewer '\n', more, by rw [← split, List.append_assoc]; rfl⟩

/-- Below a blank line both line feeds are taken, and a third one was not there. -/
theorem not_lineFeed_leftBelow (opens : OpensBlock kept) (free : ¬ blankLines <:+: rest) :
    ¬ ['\n'] <+: leftBelow kept rest := by
  intro feeds
  have taken := feedsBelow_pos feeds
  have head : rest.head? = some '\n' := by
    by_contra noFeed
    rw [feedsBelow_of_head noFeed] at taken
    omega
  obtain ⟨left, rfl⟩ := List.head?_eq_some_iff.1 head
  have split := replicate_append_leftBelow kept ('\n' :: left)
  obtain ⟨more, found⟩ := feeds
  rw [← found, feedsBelow_lineFeed] at split
  by_cases second : left.head? = some '\n'
  · rw [if_pos ⟨opens, second⟩] at split
    exact free ⟨[], more, by rw [← split]; rfl⟩
  · rw [if_neg fun both => second both.2] at split
    obtain ⟨_, rfl⟩ := List.cons.inj split
    exact second rfl

theorem not_blankLines_left (keptFree : ¬ blankLines <:+: kept)
    (restFree : ¬ blankLines <:+: rest) :
    ¬ blankLines <:+: keptAbove kept rest ++ leftBelow kept rest := by
  intro both
  rcases blankLines_infix_append both with above | below | blank | ⟨blank, feed⟩
  · exact keptFree (above.trans (List.take_prefix _ _).isInfix)
  · exact restFree (below.trans (List.drop_suffix _ _).isInfix)
  · exact not_blankLine_leftBelow restFree blank
  · exact not_lineFeed_leftBelow (opensBlock_of_keptAbove keptFree blank) restFree feed

end

/-! ## What stands around a removal -/

/-- The characters of a text around a span and the span that is removed for it. -/
structure RemovalLayout (text : String) (span widened : Span) where
  left : List Char
  /-- The number of line feeds that are taken above the indentation. -/
  up : Nat
  indent : List Char
  middle : List Char
  trail : List Char
  /-- The number of line feeds that are taken behind the rest of the line. -/
  down : Nat
  back : List Char
  chars : text.toList = left ++ (List.replicate up '\n' ++ indent ++ middle ++ trail ++
    List.replicate down '\n') ++ back
  span_eq : span = ⟨utf8Len (left ++ List.replicate up '\n' ++ indent),
    utf8Len (left ++ List.replicate up '\n' ++ indent) + utf8Len middle⟩
  widened_eq : widened = ⟨utf8Len left, utf8Len left + utf8Len (List.replicate up '\n' ++ indent ++
    middle ++ trail ++ List.replicate down '\n')⟩
  up_le : up ≤ 1
  indented : ∀ c ∈ indent, isIndent c = true
  lineRest : ∀ c ∈ trail, isLineRest c = true
  down_le : down ≤ 2
  free : ¬ blankLines <:+: text.toList → ¬ blankLines <:+: left ++ back

theorem nonempty_removalLayout (unit : SourceUnit) {span : Span} (isIn : span.IsIn unit.text) :
    Nonempty (RemovalLayout unit.text span (unit.removalSpanOf span)) := by
  obtain ⟨front, middle, back, chars, rfl⟩ := Span.isIn_iff_exists.1 isIn
  obtain ⟨kept, indent, rfl, indented, stops⟩ := exists_indent front
  obtain ⟨trail, rest, rfl, lineRest, ends⟩ := exists_lineRest back
  have removal := removalSpanOf_eq chars indented stops lineRest ends
  have above := keptAbove_append kept rest
  have below := replicate_append_leftBelow kept rest
  have keptFree (found : blankLines <:+: kept) : blankLines <:+: unit.text.toList :=
    found.trans ⟨[], indent ++ middle ++ (trail ++ rest), by simp [chars]⟩
  have restFree (found : blankLines <:+: rest) : blankLines <:+: unit.text.toList :=
    found.trans ⟨kept ++ indent ++ middle ++ trail, [], by simp [chars]⟩
  refine ⟨{
    left := keptAbove kept rest
    up := feedsAbove kept rest
    indent, middle, trail
    down := feedsBelow kept rest
    back := leftBelow kept rest
    chars := ?_
    span_eq := by rw [above]
    widened_eq := ?_
    up_le := feedsAbove_le_one kept rest
    indented, lineRest
    down_le := feedsBelow_le_two kept rest
    free := fun none => not_blankLines_left (mt keptFree none) (mt restFree none) }⟩
  · calc unit.text.toList
        = kept ++ indent ++ middle ++ (trail ++ rest) := chars
      _ = (keptAbove kept rest ++ List.replicate (feedsAbove kept rest) '\n') ++ indent ++ middle ++
            (trail ++ (List.replicate (feedsBelow kept rest) '\n' ++ leftBelow kept rest)) := by
          rw [above, below]
      _ = _ := by simp
  · have width := congrArg utf8Len above
    rw [removal, Span.mk.injEq]
    simp only [String.utf8Len_append, utf8Len_replicate_lineFeed] at width ⊢
    omega

/-! ## Safe removals -/

/-- A removal covers its span and takes besides it, in front, indentation and at most one line feed
above that, and behind, the rest of the line and at most two line feeds; a text without two blank
lines in a row has none behind the removal. -/
structure WidensSafely (text : String) (span widened : Span) : Prop where
  isIn : widened.IsIn text
  covers : widened.contains span = true
  inFront : ∃ feeds indent, (Text.slice text ⟨widened.start, span.start⟩).toList =
      List.replicate feeds '\n' ++ indent ∧ feeds ≤ 1 ∧ ∀ c ∈ indent, isIndent c = true
  behind : ∃ lineRest feeds, (Text.slice text ⟨span.stop, widened.stop⟩).toList =
      lineRest ++ List.replicate feeds '\n' ∧ (∀ c ∈ lineRest, isLineRest c = true) ∧ feeds ≤ 2
  seam : ∃ left, Edit.applyAll text [Edit.delete widened] = .ok left ∧
    (¬ blankLines <:+: text.toList → ¬ blankLines <:+: left.toList)

theorem applyAll_delete {text : String} {front middle back : List Char}
    (chars : text.toList = front ++ middle ++ back) :
    Edit.applyAll text [Edit.delete ⟨utf8Len front, utf8Len front + utf8Len middle⟩] =
      .ok (String.ofList (front ++ back)) := by
  refine Edit.applyAll_eq_ok_iff_isSplice.2 ⟨_, fun _ => rfl, ?_⟩
  have spliced : Edit.Spliced 0 (front ++ middle ++ back)
      [Edit.delete ⟨utf8Len front, utf8Len front + utf8Len middle⟩] (front ++ [] ++ back) :=
    .edit (by simp) .rest
  rw [chars, String.toList_ofList]
  simpa using spliced

theorem RemovalLayout.widensSafely {text : String} {span widened : Span}
    (layout : RemovalLayout text span widened) : WidensSafely text span widened := by
  obtain ⟨left, up, indent, middle, trail, down, back, chars, rfl, rfl, upFew, indented, lineRest,
    downFew, free⟩ := layout
  refine ⟨Span.isIn_iff_exists.2 ⟨_, _, _, chars, rfl⟩, ?_, ⟨up, indent, ?_, upFew, indented⟩,
    ⟨trail, down, ?_, lineRest, downFew⟩, _, applyAll_delete chars, ?_⟩
  · rw [Span.contains_iff]
    simp only [String.utf8Len_append]
    omega
  · have inFront : text.toList = left ++ (List.replicate up '\n' ++ indent) ++
        (middle ++ (trail ++ (List.replicate down '\n' ++ back))) := by
      simp [chars]
    rw [List.append_assoc left, String.utf8Len_append left, Text.slice_eq inFront,
      String.toList_ofList]
  · have behind : text.toList = left ++ List.replicate up '\n' ++ indent ++ middle ++
        (trail ++ List.replicate down '\n') ++ back := by
      simp [chars]
    have stop : utf8Len left + utf8Len (List.replicate up '\n' ++ indent ++ middle ++ trail ++
          List.replicate down '\n') =
        utf8Len (left ++ List.replicate up '\n' ++ indent ++ middle) +
          utf8Len (trail ++ List.replicate down '\n') := by
      simp only [String.utf8Len_append]
      omega
    rw [stop, ← String.utf8Len_append, Text.slice_eq behind, String.toList_ofList]
  · rwa [String.toList_ofList]

/-- Wherever a span stands in a text, the removal of the span is a safe one. -/
theorem widensSafely_removalSpanOf (unit : SourceUnit) {span : Span} (isIn : span.IsIn unit.text) :
    WidensSafely unit.text span (unit.removalSpanOf span) := by
  obtain ⟨layout⟩ := nonempty_removalLayout unit isIn
  exact layout.widensSafely

/-- A statement with other code on its line and a blank line on both sides. -/
def betweenBlankLines : SourceUnit := ofText ⟨"u.ts"⟩ "é\n\n\tb ;\n\nc"

theorem widensSafely_removalSpanOf_betweenBlankLines :
    (⟨5, 6⟩ : Span).IsIn betweenBlankLines.text ∧
      betweenBlankLines.removalSpanOf ⟨5, 6⟩ = ⟨4, 10⟩ ∧
      WidensSafely betweenBlankLines.text ⟨5, 6⟩ (betweenBlankLines.removalSpanOf ⟨5, 6⟩) := by
  have isIn : (⟨5, 6⟩ : Span).IsIn betweenBlankLines.text :=
    Span.isIn_iff_exists.2 ⟨"é\n\n\t".toList, ['b'], " ;\n\nc".toList, by decide, by decide⟩
  exact ⟨isIn, by decide, widensSafely_removalSpanOf betweenBlankLines isIn⟩

end SourceUnit

end CreatorMigration
