import CreatorMigration.Proofs.Unit.Removal
import Mathlib.Data.List.DropRight

/-! # Removals that crowd each other

A removal reaches over the spacing on both sides of its statement, and so two removals may reach
for the same character. `SourceUnit.overlaps_removalSpanOf_iff` says when those of two statements
overlap: on one line, where the indentation in front of the second is the rest of the line of the
first, and at a blank line in the end of a unit, of which both take the same line feed.
-/

namespace CreatorMigration

open String (utf8Len)

namespace SourceUnit

/-! ## Where a removal starts and stops -/

/-- The characters are none, or end with a blank line. -/
def OpensBlock (chars : List Char) : Prop := chars = [] ∨ ['\n', '\n'] <:+ chars

instance (chars : List Char) : Decidable (OpensBlock chars) :=
  inferInstanceAs (Decidable (_ ∨ _))

theorem OpensBlock.stops {chars : List Char} (opens : OpensBlock chars) :
    ∀ c ∈ chars.getLast?, isIndent c = false := by
  rcases opens with rfl | ⟨before, rfl⟩
  · simp
  · intro c last
    obtain rfl : '\n' = c := by simpa using last
    decide

/-- At most a line feed is left of the text. -/
def ClosesText (chars : List Char) : Prop := chars = [] ∨ chars = ['\n']

instance (chars : List Char) : Decidable (ClosesText chars) :=
  inferInstanceAs (Decidable (_ ∨ _))

theorem ClosesText.ends {chars : List Char} (closes : ClosesText chars) :
    ∀ c ∈ chars.head?, isLineRest c = false := by
  rcases closes with rfl | rfl
  · simp
  · intro c first
    obtain rfl : '\n' = c := Option.some.inj first
    decide

/-- The line feeds that a removal takes above its indentation. -/
def feedsAbove (kept rest : List Char) : Nat :=
  if ClosesText rest ∧ ['\n', '\n'] <:+ kept then 1 else 0

/-- The line feeds that a removal takes behind the rest of its line. -/
def feedsBelow (kept rest : List Char) : Nat :=
  (if rest.head? = some '\n' then 1 else 0) +
    if OpensBlock kept ∧ ['\n', '\n'] <+: rest then 1 else 0

theorem exists_indent (chars : List Char) :
    ∃ kept indent, chars = kept ++ indent ∧ (∀ c ∈ indent, isIndent c = true) ∧
      ∀ c ∈ kept.getLast?, isIndent c = false := by
  refine ⟨chars.rdropWhile isIndent, chars.rtakeWhile isIndent,
    List.rdropWhile_append_rtakeWhile.symm, fun c => List.mem_rtakeWhile_imp, ?_⟩
  intro c last
  obtain ⟨nonempty, rfl⟩ := List.mem_getLast?_eq_getLast last
  exact Bool.eq_false_iff.2 (List.rdropWhile_last_not _ _ nonempty)

theorem exists_lineRest (chars : List Char) :
    ∃ trail rest, chars = trail ++ rest ∧ (∀ c ∈ trail, isLineRest c = true) ∧
      ∀ c ∈ rest.head?, isLineRest c = false := by
  refine ⟨chars.takeWhile isLineRest, chars.dropWhile isLineRest,
    List.takeWhile_append_dropWhile.symm, fun c => List.mem_takeWhile_imp, fun c first => ?_⟩
  obtain ⟨rest, split⟩ := List.head?_eq_some_iff.1 first
  have nonempty : chars.dropWhile isLineRest ≠ [] := by simp [split]
  simpa [split] using List.head_dropWhile_not isLineRest nonempty

theorem takeWhile_append_of_head {test : Char → Bool} {taken rest : List Char}
    (all : ∀ c ∈ taken, test c = true) (stops : ∀ c ∈ rest.head?, test c = false) :
    (taken ++ rest).takeWhile test = taken := by
  rw [List.takeWhile_append_of_pos all]
  cases rest with
  | nil => simp
  | cons c rest => simp [stops c rfl]

section

variable {text : String} {kept indent middle trail rest : List Char}
  (chars : text.toList = kept ++ indent ++ middle ++ (trail ++ rest))
  (indented : ∀ c ∈ indent, isIndent c = true) (stops : ∀ c ∈ kept.getLast?, isIndent c = false)
  (lineRest : ∀ c ∈ trail, isLineRest c = true) (ends : ∀ c ∈ rest.head?, isLineRest c = false)

include chars indented stops lineRest ends

theorem wholeLines_eq :
    wholeLines text ⟨utf8Len (kept ++ indent), utf8Len (kept ++ indent) + utf8Len middle⟩ =
      ⟨utf8Len kept, utf8Len (kept ++ indent ++ middle ++ trail) +
        if rest.head? = some '\n' then 1 else 0⟩ := by
  have taken : (kept ++ indent).reverse.takeWhile isIndent = indent.reverse := by
    rw [List.reverse_append]
    refine takeWhile_append_of_head (fun c member => indented c (List.mem_reverse.1 member)) ?_
    rwa [List.head?_reverse]
  have width : utf8Len indent = indent.length := utf8Len_eq_length fun c member => by
    simp [isSpacing, isLineRest, indented c member]
  have widthTrail : utf8Len trail = trail.length := utf8Len_eq_length fun c member => by
    simp [isSpacing, lineRest c member]
  rw [wholeLines, toList_slice_before chars, toList_slice_behind chars, taken,
    takeWhile_append_of_head lineRest ends, List.drop_left]
  simp only [String.utf8Len_append, List.length_reverse, Span.mk.injEq]
  omega

end

theorem joinBlankLines_eq {text : String} {front middle back : List Char}
    (chars : text.toList = front ++ middle ++ back) :
    joinBlankLines text ⟨utf8Len front, utf8Len front + utf8Len middle⟩ =
      ⟨utf8Len front - (if back = [] ∧ ['\n', '\n'] <:+ front then 1 else 0),
        utf8Len front + utf8Len middle +
          if OpensBlock front ∧ back.head? = some '\n' then 1 else 0⟩ := by
  have blankLine : ['\n', '\n'].isPrefixOf front.reverse = true ↔ ['\n', '\n'] <:+ front := by
    rw [List.isPrefixOf_iff_prefix, ← List.reverse_prefix]
    rfl
  have opens : (front.reverse.isEmpty || ['\n', '\n'].isPrefixOf front.reverse) = true ↔
      OpensBlock front := by
    simp [OpensBlock, blankLine]
  rw [joinBlankLines, toList_slice_before chars, toList_slice_behind chars]
  simp only [Bool.and_eq_true, opens, blankLine, List.isEmpty_iff, decide_eq_true_eq]
  split
  · next below =>
    have feeds : back ≠ [] := by
      rintro rfl
      cases below.2
    rw [if_neg fun above => feeds above.1]
    rfl
  · split <;> simp

section

variable {unit : SourceUnit} {kept indent middle trail rest : List Char}
  (chars : unit.text.toList = kept ++ indent ++ middle ++ (trail ++ rest))
  (indented : ∀ c ∈ indent, isIndent c = true) (stops : ∀ c ∈ kept.getLast?, isIndent c = false)
  (lineRest : ∀ c ∈ trail, isLineRest c = true) (ends : ∀ c ∈ rest.head?, isLineRest c = false)

include chars indented stops lineRest ends

/-- A removal takes the indentation, the rest of the line and its line feed, and one of two blank
lines: the one below, or in the end of the text the one above. -/
theorem removalSpanOf_eq :
    unit.removalSpanOf ⟨utf8Len (kept ++ indent), utf8Len (kept ++ indent) + utf8Len middle⟩ =
      ⟨utf8Len kept - feedsAbove kept rest,
        utf8Len (kept ++ indent ++ middle ++ trail) + feedsBelow kept rest⟩ := by
  have covered : utf8Len (kept ++ indent ++ middle ++ trail) =
      utf8Len kept + utf8Len (indent ++ middle ++ trail) := by
    simp only [String.utf8Len_append]
    omega
  rw [removalSpanOf, wholeLines_eq chars indented stops lineRest ends, covered, feedsAbove,
    feedsBelow]
  by_cases feeds : rest.head? = some '\n'
  · obtain ⟨left, rfl⟩ := List.head?_eq_some_iff.1 feeds
    have feed : utf8Len (indent ++ middle ++ trail ++ ['\n']) =
        utf8Len (indent ++ middle ++ trail) + 1 := by
      rw [String.utf8Len_append]
      rfl
    have below : ['\n', '\n'] <+: '\n' :: left ↔ left.head? = some '\n' := by
      cases left <;> simp [eq_comm]
    have charsJoined : unit.text.toList =
        kept ++ (indent ++ middle ++ trail ++ ['\n']) ++ left := by
      simp [chars]
    rw [if_pos feeds, Nat.add_assoc, ← feed, joinBlankLines_eq charsJoined]
    simp only [ClosesText, below, feed, List.cons_ne_nil, List.cons.injEq, true_and, false_or,
      Nat.add_assoc]
  · have without : ¬ ['\n', '\n'] <+: rest := by
      rintro ⟨left, rfl⟩
      exact feeds rfl
    have closes : ClosesText rest ↔ rest = [] := or_iff_left fun only => feeds (by simp [only])
    have noSecond : ¬ (OpensBlock kept ∧ rest.head? = some '\n') := fun both => feeds both.2
    have charsJoined : unit.text.toList = kept ++ (indent ++ middle ++ trail) ++ rest := by
      simp [chars]
    rw [if_neg feeds, Nat.add_zero, joinBlankLines_eq charsJoined, if_neg noSecond]
    simp only [closes, without, and_false, if_false, Nat.add_zero]

end

/-! ## Neighbours -/

/-- What stands in front of the first of two statements, between them and behind the second, where
the removals of both take the same character. -/
inductive Crowded (front between back : List Char) : Prop where
  /-- The blank in front of the second is the rest of the line of the first. -/
  | onOneLine (rest : List Char) (blank : Char) (split : between = rest ++ [blank])
      (lineRest : ∀ c ∈ rest, isLineRest c = true) (isBlank : isIndent blank = true)
  /-- The blank line between them is the one below the first and the one above the second. -/
  | aroundBlankLine (kept indent trail indentThen trailThen left : List Char)
      (above : front = kept ++ indent) (indented : ∀ c ∈ indent, isIndent c = true)
      (opens : OpensBlock kept)
      (split : between = trail ++ ['\n', '\n'] ++ indentThen)
      (lineRest : ∀ c ∈ trail, isLineRest c = true)
      (indentedThen : ∀ c ∈ indentThen, isIndent c = true)
      (below : back = trailThen ++ left) (lineRestThen : ∀ c ∈ trailThen, isLineRest c = true)
      (closes : ClosesText left)

/-- The characters start with something else than spacing. -/
def StartsSolid (chars : List Char) : Prop := ∃ c ∈ chars.head?, isSpacing c = false

/-- The characters end with no line feed, and with a blank only in front of a line feed, as a
comment may. -/
def EndsSolid (chars behind : List Char) : Prop :=
  ∃ c ∈ chars.getLast?, c ≠ '\n' ∧ (isIndent c = true → '\n' ∈ behind)

-- by name: a search may also find the instance that runs through all characters

instance (chars : List Char) : Decidable (StartsSolid chars) :=
  Option.decidableExistsMem chars.head?

instance (chars behind : List Char) : Decidable (EndsSolid chars behind) :=
  Option.decidableExistsMem chars.getLast?

section

variable {chars more : List Char}

theorem EndsSolid.ne_nil {behind : List Char} (solid : EndsSolid chars behind) : chars ≠ [] := by
  rintro rfl
  obtain ⟨c, last, _⟩ := solid
  cases last

theorem EndsSolid.append_left {behind : List Char} (solid : EndsSolid more behind) :
    EndsSolid (chars ++ more) behind := by
  obtain ⟨c, last, both⟩ := solid
  exact ⟨c, by simp [Option.mem_def.1 last], both⟩

theorem EndsSolid.noFeed {behind : List Char} (solid : EndsSolid chars behind) :
    ∀ c ∈ chars.getLast?, c ≠ '\n' := by
  obtain ⟨c, last, noFeed, _⟩ := solid
  intro d lastThen
  rwa [Option.mem_unique lastThen last]

/-- A property of the last character, where each of two parts ends with it. -/
theorem forall_getLast?_append {property : Char → Prop} (first : ∀ c ∈ chars.getLast?, property c)
    (second : ∀ c ∈ more.getLast?, property c) : ∀ c ∈ (chars ++ more).getLast?, property c := by
  intro c last
  rw [List.getLast?_append] at last
  cases lastThen : more.getLast? with
  | none => exact first c (by simpa [lastThen] using last)
  | some d => exact second c (by simpa [lastThen] using last)

/-- The indentation between two statements does not reach back into the first one. -/
theorem EndsSolid.stops {kept indent : List Char} (solid : EndsSolid chars (kept ++ indent))
    (indented : ∀ c ∈ indent, isIndent c = true) (stops : ∀ c ∈ kept.getLast?, isIndent c = false) :
    ∀ c ∈ (chars ++ kept).getLast?, isIndent c = false := by
  rcases List.eq_nil_or_concat' kept with rfl | ⟨before, d, rfl⟩
  · obtain ⟨c, last, _, feeds⟩ := solid
    intro d lastThen
    rw [List.append_nil] at lastThen
    obtain rfl := Option.mem_unique last lastThen
    refine Bool.eq_false_iff.2 fun blank => ?_
    exact absurd (indented _ (feeds blank)) (by decide)
  · simpa [← List.append_assoc] using stops

theorem isLineRest_head?_append (ends : ∀ c ∈ chars.head?, isLineRest c = false)
    (solid : ∀ c ∈ more.head?, isLineRest c = false) :
    ∀ c ∈ (chars ++ more).head?, isLineRest c = false := by
  cases chars with
  | nil => exact solid
  | cons c rest => exact ends

theorem lineFeed_getLast?_of_suffix (feeds : ['\n', '\n'] <:+ chars ++ more)
    (short : more = [] ∨ more = ['\n']) : '\n' ∈ chars.getLast? := by
  obtain ⟨before, split⟩ := feeds
  rcases short with rfl | rfl
  · rw [List.append_nil] at split
    simp [← split]
  · obtain rfl : before ++ ['\n'] = chars := by
      have same : before ++ ['\n'] ++ ['\n'] = chars ++ ['\n'] := by simpa using split
      exact List.append_cancel_right same
    simp

end

/-- Indentation starts behind whatever is no blank. -/
theorem exists_of_indented {trail behind kept indent : List Char} {c : Char}
    (split : trail ++ c :: behind = kept ++ indent) (indented : ∀ d ∈ indent, isIndent d = true)
    (solid : isIndent c = false) : ∃ more, kept = trail ++ c :: more ∧ behind = more ++ indent := by
  rcases List.append_eq_append_iff.1 split with ⟨more, rfl, others⟩ | ⟨more, rfl, rfl⟩
  · cases more with
    | nil =>
      obtain rfl : c :: behind = indent := others
      exact absurd (indented c List.mem_cons_self) (by simp [solid])
    | cons e more =>
      obtain ⟨rfl, rfl⟩ := List.cons.inj others
      exact ⟨more, rfl, rfl⟩
  · exact absurd (indented c (by simp)) (by simp [solid])

theorem feedsAbove_le_one (kept rest : List Char) : feedsAbove kept rest ≤ 1 := by
  unfold feedsAbove
  split <;> omega

theorem feedsBelow_of_head {kept rest : List Char} (noFeed : rest.head? ≠ some '\n') :
    feedsBelow kept rest = 0 := by
  have without : ¬ ['\n', '\n'] <+: rest := by
    rintro ⟨left, rfl⟩
    exact noFeed rfl
  simp [feedsBelow, noFeed, without]

theorem feedsBelow_lineFeed (kept rest : List Char) :
    feedsBelow kept ('\n' :: rest) =
      1 + if OpensBlock kept ∧ rest.head? = some '\n' then 1 else 0 := by
  cases rest <;> simp [feedsBelow, eq_comm]

theorem feedsAbove_of_noFeed {chars more : List Char} (noFeed : '\n' ∉ chars.getLast?)
    (short : more = [] ∨ more = ['\n']) (rest : List Char) : feedsAbove (chars ++ more) rest = 0 :=
  if_neg fun above => noFeed (lineFeed_getLast?_of_suffix above.2 short)

/-- Behind a line feed the removals reach for the same character only if both take a blank line, and
nothing else stands there. -/
theorem blankLine_of_reaches {before kept above left between rest : List Char} {c : Char}
    (reaches : utf8Len (before ++ '\n' :: c :: between) - feedsAbove above left <
      utf8Len before + feedsBelow kept ('\n' :: c :: rest)) :
    OpensBlock kept ∧ ClosesText left ∧ c = '\n' ∧ between = [] := by
  have wide := c.utf8Size_pos
  have lineFeed : '\n'.utf8Size = 1 := rfl
  have taken := feedsAbove_le_one above left
  rw [feedsBelow_lineFeed] at reaches
  simp only [String.utf8Len_append, String.utf8Len_cons, lineFeed] at reaches
  have both : OpensBlock kept ∧ c = '\n' := by
    by_contra neither
    rw [if_neg fun both => neither ⟨both.1, Option.some.inj both.2⟩] at reaches
    omega
  have closes : ClosesText left := by
    by_contra neither
    rw [feedsAbove, if_neg fun both => neither both.1] at reaches
    split at reaches <;> omega
  have nothing : utf8Len between = 0 := by
    split at reaches <;> omega
  exact ⟨both.1, closes, both.2, String.utf8Len_eq_zero.1 nothing⟩

/-- Where two removals reach for the same character, that is a blank of one line or a line feed of
a blank line. -/
theorem blanks_of_reaches {before trail rest kept keptThen indent left more : List Char} {c : Char}
    (split : trail ++ rest = keptThen ++ indent) (lineRest : ∀ d ∈ trail, isLineRest d = true)
    (ends : ∀ d ∈ rest.head?, isLineRest d = false) (indented : ∀ d ∈ indent, isIndent d = true)
    (noFeed : ∀ d ∈ before.getLast?, d ≠ '\n') (solid : isSpacing c = false)
    (reaches : utf8Len (before ++ keptThen) - feedsAbove (before ++ keptThen) left <
      utf8Len (before ++ trail) + feedsBelow kept (rest ++ c :: more)) :
    (rest = [] ∧ indent ≠ []) ∨
      (OpensBlock kept ∧ ClosesText left ∧ rest = '\n' :: '\n' :: indent) := by
  have noFeedThen : '\n' ∉ (before ++ trail).getLast? := by
    refine fun last => forall_getLast?_append noFeed (fun d member => ?_) '\n' last rfl
    rintro rfl
    exact absurd (lineRest _ (List.mem_of_getLast? member)) (by decide)
  have otherThanFeed : c ≠ '\n' := by
    rintro rfl
    exact absurd solid (by decide)
  cases rest with
  | nil =>
    refine .inl ⟨rfl, fun none => ?_⟩
    obtain rfl : trail = keptThen := by simpa [none] using split
    have below : feedsBelow kept (c :: more) = 0 :=
      feedsBelow_of_head fun same => otherThanFeed (Option.some.inj same)
    have above := feedsAbove_of_noFeed noFeedThen (.inl rfl) left
    rw [List.append_nil] at above
    rw [List.nil_append, below, above] at reaches
    exact absurd reaches (Nat.lt_irrefl _)
  | cons d behind =>
    have blank : isIndent d = false := (Bool.or_eq_false_iff.1 (ends d rfl)).1
    obtain ⟨between, rfl, rfl⟩ := exists_of_indented split indented blank
    by_cases feed : d = '\n'
    · subst feed
      cases between with
      | nil =>
        -- one line feed between them, which only the first takes
        have noBlankLine : (indent ++ c :: more).head? ≠ some '\n' := by
          cases indent with
          | nil => exact fun same => otherThanFeed (Option.some.inj same)
          | cons e _ =>
            intro same
            obtain rfl : e = '\n' := Option.some.inj same
            exact absurd (indented _ List.mem_cons_self) (by decide)
        have above := feedsAbove_of_noFeed noFeedThen (.inr rfl) left
        rw [List.append_assoc] at above
        rw [above, List.nil_append, List.cons_append, feedsBelow_lineFeed,
          if_neg fun both => noBlankLine both.2] at reaches
        have lineFeed : '\n'.utf8Size = 1 := rfl
        simp only [String.utf8Len_append, String.utf8Len_cons, String.utf8Len_nil, lineFeed] at reaches
        omega
      | cons e between =>
        rw [← List.append_assoc] at reaches
        obtain ⟨opens, closes, rfl, rfl⟩ := blankLine_of_reaches reaches
        exact .inr ⟨opens, closes, rfl⟩
    · have below : feedsBelow kept (d :: (between ++ indent) ++ c :: more) = 0 :=
        feedsBelow_of_head fun same => feed (Option.some.inj same)
      have wide := d.utf8Size_pos
      have above := feedsAbove_le_one (before ++ (trail ++ d :: between)) left
      rw [below] at reaches
      simp only [String.utf8Len_append, String.utf8Len_cons] at reaches
      omega

section

variable {unit : SourceUnit} {front inFirst between inSecond back : List Char}
  (chars : unit.text.toList = front ++ inFirst ++ between ++ inSecond ++ back)

include chars

theorem overlaps_removalSpanOf_iff_reaches (nonempty : inFirst ≠ []) :
    (unit.removalSpanOf ⟨utf8Len front, utf8Len front + utf8Len inFirst⟩).overlaps
        (unit.removalSpanOf ⟨utf8Len (front ++ inFirst ++ between),
          utf8Len (front ++ inFirst ++ between) + utf8Len inSecond⟩) = true ↔
      (unit.removalSpanOf ⟨utf8Len (front ++ inFirst ++ between),
          utf8Len (front ++ inFirst ++ between) + utf8Len inSecond⟩).start <
        (unit.removalSpanOf ⟨utf8Len front, utf8Len front + utf8Len inFirst⟩).stop := by
  obtain ⟨kept, lead, trail, rest, rfl, split, _, widened⟩ :=
    widens_removalSpanOf unit front inFirst (between ++ inSecond ++ back) (by simpa using chars)
  obtain ⟨keptThen, leadThen, trailThen, restThen, splitFront, rfl, _, widenedThen⟩ :=
    widens_removalSpanOf unit _ inSecond back chars
  have wide : 0 < utf8Len inFirst := by
    rw [Nat.pos_iff_ne_zero]
    exact fun none => nonempty (String.utf8Len_eq_zero.1 none)
  have whole := congrArg utf8Len splitFront
  rw [widened, widenedThen, Span.overlaps, Bool.and_eq_true, decide_eq_true_eq, decide_eq_true_eq]
  simp only [String.utf8Len_append] at *
  exact and_iff_right (by omega)

variable (solidEnd : EndsSolid inFirst between) (solidStart : StartsSolid inSecond)

include solidEnd solidStart

theorem crowded_of_reaches
    (reaches : (unit.removalSpanOf ⟨utf8Len (front ++ inFirst ++ between),
          utf8Len (front ++ inFirst ++ between) + utf8Len inSecond⟩).start <
        (unit.removalSpanOf ⟨utf8Len front, utf8Len front + utf8Len inFirst⟩).stop) :
    Crowded front between back := by
  obtain ⟨kept, indent, rfl, indented, stops⟩ := exists_indent front
  obtain ⟨trail, rest, split, lineRest, ends⟩ := exists_lineRest between
  obtain ⟨keptThen, indentThen, splitThen, indentedThen, stopsThen⟩ := exists_indent between
  obtain ⟨trailThen, left, rfl, lineRestThen, endsThen⟩ := exists_lineRest back
  obtain ⟨c, start, solid⟩ := solidStart
  obtain ⟨inside, rfl⟩ := List.head?_eq_some_iff.1 start
  have solidBefore : EndsSolid (kept ++ indent ++ inFirst) between := solidEnd.append_left
  have charsFirst : unit.text.toList = kept ++ indent ++ inFirst ++
      (trail ++ (rest ++ c :: (inside ++ (trailThen ++ left)))) := by
    simp [chars, split]
  have charsSecond : unit.text.toList = kept ++ indent ++ inFirst ++ keptThen ++ indentThen ++
      (c :: inside) ++ (trailThen ++ left) := by
    simp [chars, splitThen]
  have first := removalSpanOf_eq charsFirst indented stops lineRest
    (isLineRest_head?_append ends (by simpa using (Bool.or_eq_false_iff.1 solid).1))
  have second := removalSpanOf_eq charsSecond indentedThen
    ((splitThen ▸ solidBefore).stops indentedThen stopsThen) lineRestThen endsThen
  have before : kept ++ indent ++ inFirst ++ between =
      kept ++ indent ++ inFirst ++ keptThen ++ indentThen := by
    rw [splitThen, ← List.append_assoc]
  rw [first, before, second] at reaches
  rcases blanks_of_reaches (split.symm.trans splitThen) lineRest ends indentedThen
    solidBefore.noFeed solid reaches with
    ⟨none, blanks⟩ | ⟨opens, closes, feeds⟩
  · obtain rfl := none
    obtain ⟨blanksBefore, blank, rfl⟩ := (List.eq_nil_or_concat' indentThen).resolve_left blanks
    rw [List.append_nil] at split
    subst split
    rw [← List.append_assoc] at splitThen
    refine .onOneLine _ blank splitThen (fun d member => lineRest d ?_)
      (indentedThen blank (by simp))
    rw [splitThen]
    exact List.mem_append_left _ member
  · subst feeds
    exact .aroundBlankLine kept indent trail indentThen trailThen left rfl indented opens
      (by simp [split]) lineRest indentedThen rfl lineRestThen closes

theorem reaches_of_crowded (crowded : Crowded front between back) :
    (unit.removalSpanOf ⟨utf8Len (front ++ inFirst ++ between),
        utf8Len (front ++ inFirst ++ between) + utf8Len inSecond⟩).start <
      (unit.removalSpanOf ⟨utf8Len front, utf8Len front + utf8Len inFirst⟩).stop := by
  obtain ⟨c, start, solid⟩ := solidStart
  have lineEnd : ∀ more, ∀ d ∈ (inSecond ++ more).head?, isLineRest d = false := by
    obtain ⟨inside, rfl⟩ := List.head?_eq_some_iff.1 start
    intro more
    simpa using (Bool.or_eq_false_iff.1 solid).1
  cases crowded with
  | onOneLine rest blank split lineRest isBlank =>
    obtain ⟨kept, indent, rfl, indented, stops⟩ := exists_indent front
    obtain ⟨keptThen, indentThen, splitThen, indentedThen, stopsThen⟩ := exists_indent between
    obtain ⟨trailThen, left, rfl, lineRestThen, endsThen⟩ := exists_lineRest back
    have lineRestBetween : ∀ d ∈ between, isLineRest d = true := by
      rw [split]
      refine List.forall_mem_append.2 ⟨lineRest, List.forall_mem_singleton.2 ?_⟩
      rw [isLineRest, isBlank, Bool.true_or]
    -- the removal of the second statement takes the indentation that the first has reached
    have wide : 0 < utf8Len indentThen := by
      rw [Nat.pos_iff_ne_zero, Ne, String.utf8Len_eq_zero]
      rintro rfl
      rw [List.append_nil] at splitThen
      subst splitThen
      exact absurd (stopsThen blank (by simp [split])) (by simp [isBlank])
    have charsFirst : unit.text.toList = kept ++ indent ++ inFirst ++
        (between ++ (inSecond ++ (trailThen ++ left))) := by
      simp [chars]
    have charsSecond : unit.text.toList = kept ++ indent ++ inFirst ++ keptThen ++ indentThen ++
        inSecond ++ (trailThen ++ left) := by
      simp [chars, splitThen]
    have first := removalSpanOf_eq charsFirst indented stops lineRestBetween (lineEnd _)
    have second := removalSpanOf_eq charsSecond indentedThen
      ((splitThen ▸ solidEnd.append_left).stops indentedThen stopsThen)
      lineRestThen endsThen
    have before : kept ++ indent ++ inFirst ++ between =
        kept ++ indent ++ inFirst ++ keptThen ++ indentThen := by
      rw [splitThen, ← List.append_assoc]
    rw [first, before, second]
    simp only [String.utf8Len_append]
    omega
  | aroundBlankLine kept indent trail indentThen trailThen left above indented opens split lineRest
      indentedThen below lineRestThen closes =>
    subst above split below
    have charsFirst : unit.text.toList = kept ++ indent ++ inFirst ++
        (trail ++ ('\n' :: '\n' :: (indentThen ++ (inSecond ++ (trailThen ++ left))))) := by
      simp [chars]
    have charsSecond : unit.text.toList = kept ++ indent ++ inFirst ++ trail ++ ['\n', '\n'] ++
        indentThen ++ inSecond ++ (trailThen ++ left) := by
      simp [chars]
    have lineFeed : isLineRest '\n' = false := by decide
    have first := removalSpanOf_eq charsFirst indented opens.stops lineRest (by simp [lineFeed])
    have second := removalSpanOf_eq charsSecond indentedThen
      (OpensBlock.stops (.inr (List.suffix_append _ _))) lineRestThen closes.ends
    have before : kept ++ indent ++ inFirst ++ (trail ++ ['\n', '\n'] ++ indentThen) =
        kept ++ indent ++ inFirst ++ trail ++ ['\n', '\n'] ++ indentThen := by
      simp
    -- the first takes a line feed below and the second one above, and there are but two
    have lineFeeds : utf8Len ['\n', '\n'] = 2 := rfl
    have above : feedsAbove (kept ++ indent ++ inFirst ++ trail ++ ['\n', '\n']) left = 1 :=
      if_pos ⟨closes, List.suffix_append _ _⟩
    rw [first, before, second, feedsBelow_lineFeed, if_pos ⟨opens, rfl⟩, above]
    simp only [String.utf8Len_append, lineFeeds]
    omega

/-- The removals of two statements overlap exactly when spacing of one of two forms stands between
the statements. -/
theorem overlaps_removalSpanOf_iff :
    (unit.removalSpanOf ⟨utf8Len front, utf8Len front + utf8Len inFirst⟩).overlaps
        (unit.removalSpanOf ⟨utf8Len (front ++ inFirst ++ between),
          utf8Len (front ++ inFirst ++ between) + utf8Len inSecond⟩) = true ↔
      Crowded front between back :=
  (overlaps_removalSpanOf_iff_reaches chars solidEnd.ne_nil).trans
    ⟨crowded_of_reaches chars solidEnd solidStart, reaches_of_crowded chars solidEnd solidStart⟩

omit solidEnd in
/-- A removal stops in front of the next statement. -/
theorem stop_removalSpanOf_le :
    (unit.removalSpanOf ⟨utf8Len front, utf8Len front + utf8Len inFirst⟩).stop ≤
      utf8Len (front ++ inFirst ++ between) := by
  obtain ⟨c, start, solid⟩ := solidStart
  obtain ⟨inside, rfl⟩ := List.head?_eq_some_iff.1 start
  obtain ⟨kept, lead, trail, rest, rfl, split, spacing, widened⟩ :=
    widens_removalSpanOf unit front inFirst (between ++ c :: inside ++ back) (by simpa using chars)
  have stops := utf8Len_le_of_spacing (fun d member => spacing d (List.mem_append_right _ member))
    solid (by simpa using split.symm)
  rw [widened]
  simp only [String.utf8Len_append]
  omega

omit solidStart in
/-- A removal starts behind the statement in front of it. -/
theorem le_start_removalSpanOf :
    utf8Len front + utf8Len inFirst ≤
      (unit.removalSpanOf ⟨utf8Len (front ++ inFirst ++ between),
        utf8Len (front ++ inFirst ++ between) + utf8Len inSecond⟩).start := by
  obtain ⟨kept, indent, rfl, indented, stops⟩ := exists_indent between
  obtain ⟨trail, left, rfl, lineRest, ends⟩ := exists_lineRest back
  have charsSecond : unit.text.toList = front ++ inFirst ++ kept ++ indent ++ inSecond ++
      (trail ++ left) := by
    simp [chars]
  have second := removalSpanOf_eq charsSecond indented (solidEnd.append_left.stops indented stops)
    lineRest ends
  rw [← List.append_assoc, second]
  by_cases above : ClosesText left ∧ ['\n', '\n'] <:+ front ++ inFirst ++ kept
  · have nonempty : kept ≠ [] := by
      rintro rfl
      have last := lineFeed_getLast?_of_suffix above.2 (.inl rfl)
      exact solidEnd.append_left.noFeed '\n' last rfl
    have wide : 0 < utf8Len kept := by
      rw [Nat.pos_iff_ne_zero, Ne, String.utf8Len_eq_zero]
      exact nonempty
    rw [feedsAbove, if_pos above]
    simp only [String.utf8Len_append]
    omega
  · rw [feedsAbove, if_neg above]
    simp only [String.utf8Len_append]
    omega

end

/-! ## Neighbouring spans -/

/-- The second statement starts and the first one ends with something else than spacing. -/
structure StandOut (unit : SourceUnit) (first second : Span) : Prop where
  starts : StartsSolid (unit.slice second).toList
  ends : EndsSolid (unit.slice first).toList (unit.slice ⟨first.stop, second.start⟩).toList

/-- The removals of two statements take the same character of the spacing around them. -/
def IsCrowded (unit : SourceUnit) (first second : Span) : Prop :=
  Crowded (unit.slice ⟨0, first.start⟩).toList (unit.slice ⟨first.stop, second.start⟩).toList
    (unit.slice ⟨second.stop, Text.size unit.text⟩).toList

section

variable {unit : SourceUnit} {first second : Span} (firstIn : first.IsIn unit.text)
  (secondIn : second.IsIn unit.text) (behind : first.stop ≤ second.start)
  (solid : unit.StandOut first second)

include firstIn secondIn behind solid

/-- The characters around and between two spans that stand out. -/
theorem StandOut.exists_parts :
    ∃ front inFirst between inSecond back,
      unit.text.toList = front ++ inFirst ++ between ++ inSecond ++ back ∧
      first = ⟨utf8Len front, utf8Len front + utf8Len inFirst⟩ ∧
      second = ⟨utf8Len (front ++ inFirst ++ between),
        utf8Len (front ++ inFirst ++ between) + utf8Len inSecond⟩ ∧
      EndsSolid inFirst between ∧ StartsSolid inSecond ∧
      (unit.IsCrowded first second ↔ Crowded front between back) := by
  obtain ⟨front, inFirst, between, inSecond, back, chars, rfl, rfl⟩ :=
    Span.exists_parts firstIn secondIn behind
  have charsFirst : unit.text.toList = front ++ inFirst ++ (between ++ inSecond ++ back) := by
    rw [chars]
    simp only [List.append_assoc]
  have sliceBetween : unit.slice ⟨utf8Len front + utf8Len inFirst,
      utf8Len (front ++ inFirst ++ between)⟩ = String.ofList between := by
    rw [← String.utf8Len_append, String.utf8Len_append (front ++ inFirst)]
    exact Text.slice_eq (by rw [chars, List.append_assoc _ inSecond])
  have sliceFirst : unit.slice ⟨utf8Len front, utf8Len front + utf8Len inFirst⟩ =
      String.ofList inFirst :=
    Text.slice_eq charsFirst
  have sliceSecond : unit.slice ⟨utf8Len (front ++ inFirst ++ between),
      utf8Len (front ++ inFirst ++ between) + utf8Len inSecond⟩ = String.ofList inSecond :=
    Text.slice_eq chars
  have starts := solid.starts
  have ends := solid.ends
  rw [sliceSecond, String.toList_ofList] at starts
  rw [sliceFirst, sliceBetween, String.toList_ofList, String.toList_ofList] at ends
  refine ⟨front, inFirst, between, inSecond, back, chars, rfl, rfl, ends, starts, ?_⟩
  rw [IsCrowded, sliceBetween, String.toList_ofList, slice, slice, toList_slice_before charsFirst,
    toList_slice_behind chars]

theorem overlaps_removalSpanOf_iff_isCrowded :
    (unit.removalSpanOf first).overlaps (unit.removalSpanOf second) = true ↔
      unit.IsCrowded first second := by
  obtain ⟨front, inFirst, between, inSecond, back, chars, rfl, rfl, ends, starts, crowded⟩ :=
    solid.exists_parts firstIn secondIn behind
  rw [crowded]
  exact overlaps_removalSpanOf_iff chars ends starts

/-- Neither removal reaches into the other statement. -/
theorem removals_beside :
    (unit.removalSpanOf first).stop ≤ second.start ∧
      first.stop ≤ (unit.removalSpanOf second).start := by
  obtain ⟨front, inFirst, between, inSecond, back, chars, rfl, rfl, ends, starts, _⟩ :=
    solid.exists_parts firstIn secondIn behind
  exact ⟨stop_removalSpanOf_le chars starts, le_start_removalSpanOf chars ends⟩

end

end SourceUnit

end CreatorMigration
