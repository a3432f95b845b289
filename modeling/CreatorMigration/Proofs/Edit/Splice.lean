import CreatorMigration.Proofs.Edit
import CreatorMigration.Project.Update

/-! # Batches of edits at once

A batch of edits is made at once: every span is one of the text in front of the batch, whatever the
other edits of the batch do. `Edit.IsSplice` says what a text becomes by that, from its start to its
end, and `Edit.applyAll_atOnce` that applying a batch comes to it, also by replacing one span after
the other from the last to the first.
-/

namespace CreatorMigration.Edit

open String (utf8Len)

/-! ## What a batch makes of a text -/

/-- The characters from an offset on, with the edits made that stand there in order: what is in
front of an edit is kept, and what it spans gives way to its replacement. -/
inductive Spliced : Nat → List Char → List Edit → List Char → Prop where
  | rest {offset : Nat} {chars : List Char} : Spliced offset chars [] chars
  | edit {offset : Nat} {kept old chars result : List Char} {edit : Edit} {edits : List Edit}
      (span : edit.span = ⟨offset + utf8Len kept, offset + utf8Len kept + utf8Len old⟩)
      (behind : Spliced edit.span.stop chars edits result) :
      Spliced offset (kept ++ old ++ chars) (edit :: edits)
        (kept ++ edit.replacement.toList ++ result)

def hasSpan (span : Span) (edit : Edit) : Bool := decide (edit.span = span)

/-- The batches differ at most in the order of edits with different spans. -/
def SameBySpan (left right : List Edit) : Prop :=
  ∀ span, left.filter (hasSpan span) = right.filter (hasSpan span)

/-- The text with the edits of a batch made in the order in which they stand in it; edits of one
span are made in the order of the batch. What is put in where a replaced span starts can only stand
in front of the replacement. -/
def IsSplice (text : String) (edits : List Edit) (result : String) : Prop :=
  ∃ ordered, SameBySpan edits ordered ∧ Spliced 0 text.toList ordered result.toList

/-! ## Making edits one after the other -/

/-- Replaces the span of an edit in a text as it is by then. -/
def replaceIn (edit : Edit) (text : String) : String :=
  Text.slice text ⟨0, edit.span.start⟩ ++ edit.replacement ++
    Text.slice text ⟨edit.span.stop, Text.size text⟩

/-- Makes edits from the last to the first, so that none moves the spans of those to come. -/
def replaceBackwards (text : String) (edits : List Edit) : String := edits.foldr replaceIn text

/-! ## Edits in order -/

theorem stop_eq_utf8Len {front kept old : List Char} {edit : Edit}
    (span : edit.span =
      ⟨utf8Len front + utf8Len kept, utf8Len front + utf8Len kept + utf8Len old⟩) :
    edit.span.stop = utf8Len (front ++ kept ++ old) := by
  rw [span, String.utf8Len_append, String.utf8Len_append]

namespace Spliced

variable {text : String} {chars result : List Char} {edits : List Edit}

theorem inOrder (front : List Char) (spliced : Spliced (utf8Len front) chars edits result)
    (split : text.toList = front ++ chars) :
    Span.InOrder text (utf8Len front) (Text.size text) (edits.map Edit.span) := by
  generalize start : utf8Len front = offset at spliced
  induction spliced generalizing front with
  | rest =>
    rw [Text.size_eq, split, String.utf8Len_append, ← start]
    exact Nat.le_add_right _ _
  | @edit offset kept old chars result edit edits span _ inductionHypothesis =>
    subst start
    have parts : text.toList = front ++ kept ++ old ++ chars := by simp [split]
    have length := stop_eq_utf8Len span
    refine ⟨?_, ?_, ?_⟩
    · rw [span]
      exact Nat.le_add_right _ _
    · exact Span.isIn_iff_exists.2 ⟨front ++ kept, old, chars, parts, by
        rw [span, String.utf8Len_append]⟩
    · exact inductionHypothesis _ parts length.symm

theorem splice_eq (front : List Char) (spliced : Spliced (utf8Len front) chars edits result)
    (split : text.toList = front ++ chars) :
    splice text (utf8Len front) edits = String.ofList result := by
  generalize start : utf8Len front = offset at spliced
  induction spliced generalizing front with
  | rest => rw [splice, ← start, Text.slice_size split]
  | @edit offset kept old chars result edit edits span _ inductionHypothesis =>
    subst start
    have parts : text.toList = front ++ kept ++ (old ++ chars) := by simp [split]
    have whole : text.toList = front ++ kept ++ old ++ chars := by simp [split]
    have length := stop_eq_utf8Len span
    have first := Text.slice_eq parts
    rw [splice, inductionHypothesis _ whole length.symm, span]
    dsimp only
    rw [first, String.ofList_append, String.ofList_append, String.ofList_toList]

/-- The edits behind leave the span of an edit where it is. -/
theorem replaceBackwards_eq (front : List Char) (spliced : Spliced (utf8Len front) chars edits result)
    (split : text.toList = front ++ chars) :
    replaceBackwards text edits = String.ofList (front ++ result) := by
  generalize start : utf8Len front = offset at spliced
  induction spliced generalizing front with
  | rest =>
    rw [← split, String.ofList_toList]
    rfl
  | @edit offset kept old chars result edit edits span _ inductionHypothesis =>
    subst start
    have whole : text.toList = front ++ kept ++ old ++ chars := by simp [split]
    have length := stop_eq_utf8Len span
    have behind := inductionHypothesis _ whole length.symm
    -- the edits behind are made first and leave what stands in front of them
    have leftOver : (replaceBackwards text edits).toList = front ++ kept ++ (old ++ result) := by
      rw [behind, String.toList_ofList]
      simp
    have leftOverThen : (replaceBackwards text edits).toList = front ++ kept ++ old ++ result := by
      rw [leftOver]
      simp
    have start : edit.span.start = utf8Len (front ++ kept) := by
      rw [span, String.utf8Len_append]
    change replaceIn edit (replaceBackwards text edits) = _
    rw [replaceIn, start, length, Text.slice_zero leftOver, Text.slice_size leftOverThen,
      String.ofList_append, String.ofList_append, String.ofList_append, String.ofList_append,
      String.ofList_toList, String.append_assoc, String.append_assoc, String.append_assoc]

end Spliced

/-- Edits in order can be made. -/
theorem exists_spliced {text : String} (front : List Char) {chars : List Char} {upper : Nat}
    {edits : List Edit} (placed : Span.InOrder text (utf8Len front) upper (edits.map Edit.span))
    (split : text.toList = front ++ chars) :
    ∃ result, Spliced (utf8Len front) chars edits result := by
  induction edits generalizing front chars with
  | nil => exact ⟨chars, .rest⟩
  | cons edit rest inductionHypothesis =>
    obtain ⟨behind, isIn, others⟩ := placed
    obtain ⟨longer, old, back, parts, span⟩ := Span.isIn_iff_exists.1 isIn
    rw [List.append_assoc] at parts
    -- the edit starts no earlier than the text that is left, so its front is that of the text
    obtain ⟨kept, rfl⟩ := Text.prefix_of_utf8Len_le (split.symm.trans parts) (by
      rw [span] at behind
      exact behind)
    have length : edit.span.stop = utf8Len (front ++ kept ++ old) := by
      rw [span, String.utf8Len_append (front ++ kept)]
    have whole : text.toList = front ++ kept ++ old ++ back := by simp [parts]
    rw [length] at others
    obtain ⟨result, spliced⟩ := inductionHypothesis _ others whole
    obtain rfl : chars = kept ++ old ++ back := by
      rw [split, List.append_assoc, List.append_assoc] at whole
      simpa using whole
    rw [← length] at spliced
    exact ⟨_, .edit (by rw [span, String.utf8Len_append]) spliced⟩

/-! ## The order of a batch -/

theorem precedes_iff {left right : Edit} :
    precedes left right = true ↔ left.span.start < right.span.start ∨
      left.span.start = right.span.start ∧ left.span.stop ≤ right.span.stop := by
  simp [precedes]

theorem precedes_of_span_eq {left right : Edit} (same : left.span = right.span) :
    precedes left right = true :=
  precedes_iff.2 (.inr ⟨congrArg Span.start same, Nat.le_of_eq (congrArg Span.stop same)⟩)

theorem span_eq_of_precedes {left right : Edit} (first : precedes left right = true)
    (second : precedes right left = true) : left.span = right.span := by
  rw [precedes_iff] at first second
  exact Span.eq_of_offsets (by omega) (by omega)

theorem sameBySpan_sort (edits : List Edit) :
    SameBySpan edits (Ordered.sort precedes edits) := fun _ =>
  (Ordered.filter_sort precedes (fun _ _ leftHas rightHas => precedes_of_span_eq
    ((of_decide_eq_true leftHas).trans (of_decide_eq_true rightHas).symm)) edits).symm

theorem SameBySpan.mem {left right : List Edit} (same : SameBySpan left right) {edit : Edit}
    (member : edit ∈ left) : edit ∈ right := by
  have kept : edit ∈ left.filter (hasSpan edit.span) :=
    List.mem_filter.2 ⟨member, decide_eq_true rfl⟩
  rw [same edit.span] at kept
  exact List.mem_of_mem_filter kept

theorem SameBySpan.symm {left right : List Edit} (same : SameBySpan left right) :
    SameBySpan right left := fun span => (same span).symm

theorem SameBySpan.trans {left middle right : List Edit} (first : SameBySpan left middle)
    (second : SameBySpan middle right) : SameBySpan left right := fun span =>
  (first span).trans (second span)

/-- A batch can be put into the order of its spans in one way only. -/
theorem SameBySpan.eq_of_pairwise {left right : List Edit} (same : SameBySpan left right)
    (leftOrdered : left.Pairwise fun first second => precedes first second = true)
    (rightOrdered : right.Pairwise fun first second => precedes first second = true) :
    left = right := by
  induction left generalizing right with
  | nil =>
    cases right with
    | nil => rfl
    | cons first rest => cases same.symm.mem List.mem_cons_self
  | cons first rest inductionHypothesis =>
    cases right with
    | nil => cases same.mem List.mem_cons_self
    | cons other others =>
      obtain ⟨firstLeads, restOrdered⟩ := List.pairwise_cons.1 leftOrdered
      obtain ⟨otherLeads, othersOrdered⟩ := List.pairwise_cons.1 rightOrdered
      have spans : first.span = other.span := by
        refine span_eq_of_precedes ?_ ?_
        · rcases List.mem_cons.1 (same.symm.mem List.mem_cons_self) with rfl | member
          · exact precedes_of_span_eq rfl
          · exact firstLeads other member
        · rcases List.mem_cons.1 (same.mem List.mem_cons_self) with rfl | member
          · exact precedes_of_span_eq rfl
          · exact otherLeads first member
      -- both stand first among the edits of their span
      have heads := same first.span
      have firstHas : hasSpan first.span first = true := decide_eq_true rfl
      have otherHas : hasSpan first.span other = true := decide_eq_true spans.symm
      rw [List.filter_cons_of_pos firstHas, List.filter_cons_of_pos otherHas] at heads
      obtain rfl : first = other := (List.cons.inj heads).1
      refine congrArg (first :: ·) (inductionHypothesis (fun span => ?_) restOrdered othersOrdered)
      have here := same span
      rw [List.filter_cons, List.filter_cons] at here
      split at here
      · exact (List.cons.inj here).2
      · exact here

/-- Spans one behind the other are in order. -/
theorem inOrder_of_pairwise {text : String} {offset : Nat} {edits : List Edit}
    (boundary : offset ≤ Text.size text) (above : ∀ edit ∈ edits, offset ≤ edit.span.start)
    (isIn : ∀ edit ∈ edits, edit.span.IsIn text)
    (behind : edits.Pairwise fun first second => first.span.stop ≤ second.span.start) :
    Span.InOrder text offset (Text.size text) (edits.map Edit.span) := by
  induction edits generalizing offset with
  | nil => exact boundary
  | cons edit rest inductionHypothesis =>
    obtain ⟨editIn, restIn⟩ := List.forall_mem_cons.1 isIn
    obtain ⟨leads, restBehind⟩ := List.pairwise_cons.1 behind
    exact ⟨above edit List.mem_cons_self, editIn,
      inductionHypothesis editIn.stop_le leads restIn restBehind⟩

theorem pairwise_precedes_of_inOrder {text : String} {lower upper : Nat} {edits : List Edit}
    (placed : Span.InOrder text lower upper (edits.map Edit.span)) :
    edits.Pairwise fun first second => precedes first second = true := by
  have behind := List.pairwise_map.1 placed.pairwise
  refine behind.imp_of_mem fun {first second} member memberThen stops => ?_
  have firstIn := (placed.isIn (List.mem_map_of_mem member)).2.1.ordered
  have secondIn := (placed.isIn (List.mem_map_of_mem memberThen)).2.1.ordered
  rw [precedes_iff]
  omega

/-! ## Applying a batch -/

variable {text : String} {edits : List Edit} {result : String}

theorem applyAll_eq_ok_iff :
    applyAll text edits = .ok result ↔
      (∀ edit ∈ edits, edit.span.IsIn text) ∧
        findOverlap (Ordered.sort precedes edits) = none ∧
        splice text 0 (Ordered.sort precedes edits) = result := by
  unfold applyAll
  cases faulty : edits.find? fun edit => !inBounds text edit with
  | some edit =>
    have outside := List.find?_some faulty
    have member := List.mem_of_find?_eq_some faulty
    simp only [reduceCtorEq, false_iff, not_and]
    intro isIn
    simp [inBounds_iff.2 (isIn edit member)] at outside
  | none =>
    have isIn : ∀ edit ∈ edits, edit.span.IsIn text := fun edit member =>
      inBounds_iff.1 (by simpa using List.find?_eq_none.1 faulty edit member)
    dsimp only
    cases findOverlap (Ordered.sort precedes edits) with
    | none => simp [and_iff_right isIn]
    | some => simp

theorem spliced_of_applyAll (applied : applyAll text edits = .ok result) :
    Spliced 0 text.toList (Ordered.sort precedes edits) result.toList := by
  obtain ⟨isIn, clear, made⟩ := applyAll_eq_ok_iff.1 applied
  have isInThen : ∀ edit ∈ Ordered.sort precedes edits, edit.span.IsIn text := fun edit member =>
    isIn edit ((Ordered.mem_sort precedes edits).1 member)
  have behind := (findOverlap_eq_none_iff fun edit member => (isInThen edit member).ordered).1 clear
  have placed := inOrder_of_pairwise (Nat.zero_le _) (fun _ _ => Nat.zero_le _) isInThen behind
  obtain ⟨chars, spliced⟩ := exists_spliced [] placed rfl
  have same : splice text 0 _ = String.ofList chars := spliced.splice_eq [] rfl
  rw [← made, same, String.toList_ofList]
  exact spliced

/-- A batch is applied in one way, and that is the splice. -/
theorem applyAll_eq_ok_iff_isSplice :
    applyAll text edits = .ok result ↔ IsSplice text edits result := by
  constructor
  · exact fun applied => ⟨_, sameBySpan_sort edits, spliced_of_applyAll applied⟩
  · rintro ⟨ordered, same, spliced⟩
    have placed := spliced.inOrder [] rfl
    have sorted := Ordered.pairwise_sort precedes (by simp [precedes]; omega)
      (by simp [precedes]; omega) edits
    obtain rfl : Ordered.sort precedes edits = ordered :=
      ((sameBySpan_sort edits).symm.trans same).eq_of_pairwise sorted
        (pairwise_precedes_of_inOrder placed)
    have isIn : ∀ edit ∈ Ordered.sort precedes edits, edit.span.IsIn text := fun edit member =>
      (placed.isIn (List.mem_map_of_mem member)).2.1
    refine applyAll_eq_ok_iff.2 ⟨fun edit member => ?_, ?_, ?_⟩
    · exact isIn edit ((Ordered.mem_sort precedes edits).2 member)
    · exact (findOverlap_eq_none_iff fun edit member => (isIn edit member).ordered).2
        (List.pairwise_map.1 placed.pairwise)
    · exact (spliced.splice_eq [] rfl).trans String.ofList_toList

theorem SameBySpan.isSplice {other : List Edit} (same : SameBySpan edits other)
    (isSplice : IsSplice text other result) : IsSplice text edits result := by
  obtain ⟨ordered, sameThen, spliced⟩ := isSplice
  exact ⟨ordered, same.trans sameThen, spliced⟩

theorem exists_applyAll_iff_isIn_and_disjoint :
    (∃ result, applyAll text edits = .ok result) ↔
      (∀ edit ∈ edits, edit.span.IsIn text) ∧ Disjoint edits := by
  constructor
  · intro accepted
    obtain ⟨result, applied⟩ := accepted
    have isIn := (applyAll_eq_ok_iff.1 applied).1
    exact ⟨isIn, (exists_applyAll_iff isIn).1 ⟨result, applied⟩⟩
  · rintro ⟨isIn, disjoint⟩
    exact (exists_applyAll_iff isIn).2 disjoint

theorem isSplice_of_apply {unit after : SourceUnit} (applied : unit.apply edits = .ok after) :
    IsSplice unit.text edits after.text := by
  unfold SourceUnit.apply at applied
  split at applied
  · next empty =>
    cases applied
    obtain rfl := List.isEmpty_iff.1 empty
    exact ⟨[], fun _ => rfl, .rest⟩
  · cases made : applyAll unit.text edits with
    | error => simp [made, Except.map] at applied
    | ok text =>
      simp only [made, Except.map, Except.ok.injEq] at applied
      subst applied
      exact applyAll_eq_ok_iff_isSplice.1 made

/-- What applying a batch comes to. -/
structure AppliesAtOnce (edits : List Edit) : Prop where
  accepted_iff : ∀ text, (∃ result, applyAll text edits = .ok result) ↔
    (∀ edit ∈ edits, edit.span.IsIn text) ∧ Disjoint edits
  isSplice_iff : ∀ text result, applyAll text edits = .ok result ↔ IsSplice text edits result
  /-- The edits may be made one after the other, from the last to the first. -/
  backwards : ∀ text result, applyAll text edits = .ok result →
    replaceBackwards text (Ordered.sort precedes edits) = result
  reordered : ∀ other, SameBySpan edits other → ∀ text result,
    applyAll text other = .ok result ↔ applyAll text edits = .ok result
  unit : ∀ unit after : SourceUnit, unit.apply edits = .ok after →
    IsSplice unit.text edits after.text
  /-- A batch that is refused leaves all units with their texts and trees and what is known of
  them. -/
  refused : ∀ path project error left, Update.apply path edits project = .error error left →
    left = project

/-- A batch is made at once or not at all. -/
theorem applyAll_atOnce (edits : List Edit) : AppliesAtOnce edits := by
  refine ⟨fun _ => exists_applyAll_iff_isIn_and_disjoint, fun _ _ => applyAll_eq_ok_iff_isSplice,
    fun text result applied => ?_, fun other same text result => ?_,
    fun _ _ applied => isSplice_of_apply applied, fun path project error left failed => ?_⟩
  · exact ((spliced_of_applyAll applied).replaceBackwards_eq [] rfl).trans String.ofList_toList
  · rw [applyAll_eq_ok_iff_isSplice, applyAll_eq_ok_iff_isSplice]
    exact ⟨same.isSplice, same.symm.isSplice⟩
  · unfold Update.apply Update.step at failed
    split at failed
    · cases failed
    · cases failed
      rfl

end CreatorMigration.Edit
