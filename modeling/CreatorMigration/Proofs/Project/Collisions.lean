import CreatorMigration.Proofs.Project.Failures
import CreatorMigration.Proofs.Unit.Crowding

/-! # Alignments that fail

An alignment fails when two of its removals overlap. `Project.alignImports_fails_iff` says which two
statements these are: both lose all their names and have nothing else, and stand on one line with a
blank in front of the second, or around a blank line behind which nothing follows.
-/

namespace CreatorMigration

@[simp]
theorem Edit.overlaps_delete (first second : Span) :
    (Edit.delete first).overlaps (Edit.delete second) = first.overlaps second := rfl

theorem Edit.not_overlaps {first second : Edit} (behind : first.span.stop ≤ second.span.start) :
    ¬ first.overlaps second = true :=
  Bool.not_eq_true _ ▸ overlaps_eq_false_iff.2 (.inr behind)

/-! ## Import statements in order -/

namespace Import

theorem statement_readPart (text : String) (statement : Import) (part : Node) :
    (readPart text statement part).statement = statement.statement := by
  unfold readPart
  split
  · rfl
  · split
    · rfl
    · split <;> rfl

theorem namedSpan_readPart {text : String} {statement : Import} {part : Node} {list : Span}
    (braces : (readPart text statement part).namedSpan = some list) :
    statement.namedSpan = some list ∨ part.span = list := by
  unfold readPart at braces
  split at braces
  · exact .inl braces
  · split at braces
    · exact .inl braces
    · split at braces
      · exact .inr (Option.some.inj braces)
      · exact .inl braces

theorem statement_foldl_readPart (text : String) (parts : List Node) (statement : Import) :
    (parts.foldl (readPart text) statement).statement = statement.statement := by
  induction parts generalizing statement with
  | nil => rfl
  | cons part rest inductionHypothesis =>
    rw [List.foldl_cons, inductionHypothesis, statement_readPart]

theorem namedSpan_foldl_readPart {text : String} {parts : List Node} {statement : Import}
    {list : Span} (braces : (parts.foldl (readPart text) statement).namedSpan = some list) :
    statement.namedSpan = some list ∨ ∃ part ∈ parts, part.span = list := by
  induction parts generalizing statement with
  | nil => exact .inl braces
  | cons part rest inductionHypothesis =>
    cases inductionHypothesis braces with
    | inl first =>
      cases namedSpan_readPart first with
      | inl given => exact .inl given
      | inr own => exact .inr ⟨part, List.mem_cons_self, own⟩
    | inr later =>
      obtain ⟨other, member, own⟩ := later
      exact .inr ⟨other, List.mem_cons_of_mem _ member, own⟩

variable {text : String} {node : Node} {statement : Import}

theorem statement_of_ofNode? (read : ofNode? text node = some statement) :
    statement.statement = node.span := by
  obtain ⟨source, _, rfl⟩ := Option.map_eq_some_iff.1 read
  dsimp only
  split
  · rw [statement_foldl_readPart]
  · rfl

/-- The braces of an import stand inside its statement. -/
theorem contains_namedSpan (read : ofNode? text node = some statement) (placed : node.IsPlaced text)
    {list : Span} (braces : statement.namedSpan = some list) :
    statement.statement.contains list = true := by
  rw [statement_of_ofNode? read]
  obtain ⟨source, _, rfl⟩ := Option.map_eq_some_iff.1 read
  dsimp only at braces
  split at braces
  · next clause found =>
    have clauseChild := List.mem_of_find?_eq_some found
    cases namedSpan_foldl_readPart braces with
    | inl none => cases none
    | inr part =>
      obtain ⟨part, member, rfl⟩ := part
      have partChild := (List.mem_filter.1 member).1
      have outer := placed.children.inOrder.isIn (List.mem_map_of_mem clauseChild)
      have inner := (placed.child clauseChild).children.inOrder.isIn (List.mem_map_of_mem partChild)
      exact Span.contains_iff.2 ⟨outer.1.trans inner.1, inner.2.2.trans outer.2.2⟩
  · cases braces

end Import

namespace SourceUnit

variable {unit : SourceUnit}

/-- The import statements of a unit stand one behind the other. -/
theorem inOrder_imports (unit : SourceUnit) :
    Span.InOrder unit.text unit.tree.span.start unit.tree.span.stop
      (unit.imports.map Import.statement) := by
  have nodes : ((unit.topLevelOf .importStatement).map Node.span).Sublist
      (unit.topLevel.map fun place => place.node.span) := by
    have mapped : (unit.topLevel.map fun place => place.node.span) =
        (unit.topLevel.map Place.node).map Node.span := by
      simp
    rw [topLevelOf, mapped]
    exact List.filter_sublist.map _
  -- not every import statement is read as one, but those that are keep their order
  have statements (nodes : List Node) :
      ((nodes.filterMap (Import.ofNode? unit.text)).map Import.statement).Sublist
        (nodes.map Node.span) := by
    induction nodes with
    | nil => exact List.Sublist.refl _
    | cons node rest inductionHypothesis =>
      cases read : Import.ofNode? unit.text node with
      | none => simpa [read] using inductionHypothesis.cons _
      | some statement =>
        simpa [read, Import.statement_of_ofNode? read] using inductionHypothesis
  exact unit.inOrder_topLevel.sublist ((statements _).trans nodes)

theorem contains_of_mem_imports {statement : Import} (member : statement ∈ unit.imports)
    {list : Span} (braces : statement.namedSpan = some list) :
    statement.statement.contains list = true := by
  obtain ⟨node, nodeMember, read⟩ := List.mem_filterMap.1 member
  exact Import.contains_namedSpan read (isPlaced_of_mem_topLevelOf nodeMember) braces

/-! ## Statements that are removed -/

/-- All that a statement imports is named, and none of it is mentioned. -/
structure IsEmptied (mentioned : List String) (statement : Import) : Prop where
  named : statement.named ≠ []
  unmentioned : ∀ specifier ∈ statement.named, specifier.localName ∉ mentioned
  noDefault : statement.defaultName = none
  noNamespace : statement.namespaceName = none

/-- The edit that drops the names of a statement that are not mentioned. -/
def dropEdit? (unit : SourceUnit) (mentioned : List String) (statement : Import) : Option Edit :=
  if statement.named.any (isUnused mentioned) then
    unit.keepEdit? statement (statement.named.filter fun specifier => !isUnused mentioned specifier)
  else none

theorem unusedImportEdits_eq (unit : SourceUnit) (mentioned : List String) :
    unit.unusedImportEdits mentioned = unit.imports.filterMap (unit.dropEdit? mentioned) :=
  rfl

variable {mentioned : List String} {statement : Import}

theorem isUnused_iff {specifier : ImportSpecifier} :
    isUnused mentioned specifier = true ↔ specifier.localName ∉ mentioned := by
  simp [isUnused]

theorem IsEmptied.filter_eq_nil (emptied : IsEmptied mentioned statement) :
    (statement.named.filter fun specifier => !isUnused mentioned specifier) = [] := by
  simpa [isUnused] using emptied.unmentioned

/-- A statement that is left with nothing is removed. -/
theorem dropEdit?_of_isEmptied (unit : SourceUnit) (emptied : IsEmptied mentioned statement) :
    unit.dropEdit? mentioned statement =
      some (Edit.delete (unit.removalSpanOf statement.statement)) := by
  have unused : statement.named.any (isUnused mentioned) = true := by
    obtain ⟨specifier, rest, split⟩ := List.exists_cons_of_ne_nil emptied.named
    have absent := emptied.unmentioned specifier (by simp [split])
    simp [split, isUnused_iff.2 absent]
  simp [dropEdit?, unused, emptied.filter_eq_nil, keepEdit?, emptied.noDefault,
    emptied.noNamespace]

/-- A statement that is left with something is changed inside. -/
theorem contains_of_dropEdit? (member : statement ∈ unit.imports)
    (kept : ¬ IsEmptied mentioned statement) {edit : Edit}
    (drops : unit.dropEdit? mentioned statement = some edit) :
    statement.statement.contains edit.span = true := by
  unfold dropEdit? at drops
  split at drops
  · next unused =>
    unfold keepEdit? at drops
    split at drops
    · obtain ⟨list, braces, rfl⟩ := Option.map_eq_some_iff.1 drops
      exact contains_of_mem_imports member braces
    · obtain rfl := Option.some.inj drops
      exact Span.contains_iff.2 ⟨Nat.le_refl _, Nat.le_refl _⟩
    · next nothing noDefault =>
      split at drops
      · next noNamespace =>
        refine absurd ⟨?_, ?_, noDefault, by simpa using noNamespace⟩ kept
        · rintro none
          simp [none] at unused
        · simpa [isUnused] using nothing
      · cases drops
  · cases drops

/-! ## Statements that collide -/

/-- What drops names from one statement overlaps what drops names from another. -/
def Collide (unit : SourceUnit) (mentioned : List String) (first second : Import) : Prop :=
  ∃ edit ∈ unit.dropEdit? mentioned first, ∃ other ∈ unit.dropEdit? mentioned second,
    edit.overlaps other = true

theorem not_disjoint_unusedImportEdits_iff :
    ¬ Edit.Disjoint (unit.unusedImportEdits mentioned) ↔
      ∃ first second, [first, second].Sublist unit.imports ∧
        unit.Collide mentioned first second := by
  rw [unusedImportEdits_eq, Edit.Disjoint, List.pairwise_filterMap, List.pairwise_iff_forall_sublist]
  simp only [Collide, Option.mem_def]
  push Not
  simp only [Bool.not_eq_false]

theorem collide_iff {first second : Import} (pair : [first, second].Sublist unit.imports)
    (solid : unit.StandOut first.statement second.statement) :
    unit.Collide mentioned first second ↔
      IsEmptied mentioned first ∧ IsEmptied mentioned second ∧
        unit.IsCrowded first.statement second.statement := by
  have firstMember : first ∈ unit.imports := pair.subset (by simp)
  have secondMember : second ∈ unit.imports := pair.subset (by simp)
  have behind : first.statement.stop ≤ second.statement.start := by
    have ordered := unit.inOrder_imports.pairwise
    rw [List.pairwise_map, List.pairwise_iff_forall_sublist] at ordered
    exact ordered pair
  have firstIn := (fits_of_mem_imports firstMember).statement
  have secondIn := (fits_of_mem_imports secondMember).statement
  have beside := removals_beside firstIn secondIn behind solid
  have crowded := overlaps_removalSpanOf_iff_isCrowded firstIn secondIn behind solid
  constructor
  · rintro ⟨edit, drops, other, dropsThen, overlap⟩
    -- only two removals can reach each other: the other edits stay inside their statements
    by_cases emptied : IsEmptied mentioned first
    · rw [dropEdit?_of_isEmptied unit emptied, Option.mem_some] at drops
      subst drops
      by_cases emptiedThen : IsEmptied mentioned second
      · rw [dropEdit?_of_isEmptied unit emptiedThen, Option.mem_some] at dropsThen
        subst dropsThen
        rw [Edit.overlaps_delete] at overlap
        exact ⟨emptied, emptiedThen, crowded.1 overlap⟩
      · have inside := Span.contains_iff.1 (contains_of_dropEdit? secondMember emptiedThen dropsThen)
        exact absurd overlap (Edit.not_overlaps (beside.1.trans inside.1))
    · have inside := Span.contains_iff.1 (contains_of_dropEdit? firstMember emptied drops)
      by_cases emptiedThen : IsEmptied mentioned second
      · rw [dropEdit?_of_isEmptied unit emptiedThen, Option.mem_some] at dropsThen
        subst dropsThen
        exact absurd overlap (Edit.not_overlaps (inside.2.trans beside.2))
      · have insideThen :=
          Span.contains_iff.1 (contains_of_dropEdit? secondMember emptiedThen dropsThen)
        exact absurd overlap (Edit.not_overlaps (inside.2.trans (behind.trans insideThen.1)))
  · rintro ⟨emptied, emptiedThen, both⟩
    have overlap := crowded.2 both
    rw [← Edit.overlaps_delete] at overlap
    exact ⟨_, dropEdit?_of_isEmptied unit emptied, _, dropEdit?_of_isEmptied unit emptiedThen,
      overlap⟩

end SourceUnit

/-! ## Alignments that fail -/

namespace Project

open Update

/-- Of a unit that is found an alignment brings in all names that are missing, and then it fails
exactly when two import statements collide: both are removed, and the spacing around them is of one
of the two forms in which their removals overlap. -/
theorem alignImports_fails_iff {project : Project} {path : Path} {before : SourceUnit}
    (found : project.unit? path = some before) (table : ImportTable) :
    ∃ added left unit, bringInAll table path before.namesMissing project = .ok added left ∧
      left.unit? path = some unit ∧
      ((alignImports table path).Fails project ↔
        ∃ first second, [first, second].Sublist unit.imports ∧
          unit.Collide before.namesUsed first second) ∧
      ∀ first second, [first, second].Sublist unit.imports →
        unit.StandOut first.statement second.statement →
        (unit.Collide before.namesUsed first second ↔
          SourceUnit.IsEmptied before.namesUsed first ∧
            SourceUnit.IsEmptied before.namesUsed second ∧
              unit.IsCrowded first.statement second.statement) := by
  obtain ⟨added, left, brought⟩ :=
    not_fails_iff.1 (not_fails_bringInAll found table before.namesMissing)
  obtain ⟨unit, foundThen⟩ :=
    exists_unit?_of_paths_eq ((changesOnly_bringInAll table _).sameBut brought).paths_eq found
  refine ⟨added, left, unit, brought, foundThen, ?_, fun _ _ => SourceUnit.collide_iff⟩
  rw [fails_alignImports_iff found, ← SourceUnit.not_disjoint_unusedImportEdits_iff]
  constructor
  · rintro ⟨_, ⟨other, addedThen, leftThen, unitThen, foundOther, broughtThen, foundLast, rfl⟩,
      overlap⟩
    -- the run is determined, so these removals are those of the unit above
    cases found.symm.trans foundOther
    cases brought.symm.trans broughtThen
    cases foundThen.symm.trans foundLast
    exact overlap
  · intro overlap
    exact ⟨_, ⟨before, added, left, unit, found, brought, foundThen, rfl⟩, overlap⟩

/-- Two imports of which nothing is mentioned stand on one line. -/
def importsOnOneLine : Project :=
  ofSources ⟨""⟩ {} [(⟨"a.ts"⟩, "import \x7bA\x7d from'a'; import \x7bB\x7d from'b';")]

theorem alignImports_fails_iff_importsOnOneLine :
    ∃ before added left unit, importsOnOneLine.unit? ⟨"a.ts"⟩ = some before ∧
      bringInAll [] ⟨"a.ts"⟩ before.namesMissing importsOnOneLine = .ok added left ∧
      left.unit? ⟨"a.ts"⟩ = some unit ∧
      ((alignImports [] ⟨"a.ts"⟩).Fails importsOnOneLine ↔
        ∃ first second, [first, second].Sublist unit.imports ∧
          unit.Collide before.namesUsed first second) ∧
      ∃ first second, [first, second].Sublist unit.imports ∧
        unit.StandOut first.statement second.statement ∧
        unit.Collide before.namesUsed first second ∧
        unit.IsCrowded first.statement second.statement := by
  have stands : ∃ unit ∈ importsOnOneLine.unit? ⟨"a.ts"⟩, unit.namesMissing = [] ∧
      ∃ first ∈ unit.imports.head?, ∃ second ∈ unit.imports.tail.head?,
        SourceUnit.StartsSolid (unit.slice second.statement).toList ∧
        SourceUnit.EndsSolid (unit.slice first.statement).toList
          (unit.slice ⟨first.statement.stop, second.statement.start⟩).toList ∧
        ∃ edit ∈ unit.dropEdit? unit.namesUsed first,
          ∃ other ∈ unit.dropEdit? unit.namesUsed second, edit.overlaps other = true := by
    decide +kernel
  obtain ⟨before, found, nothing, first, isFirst, second, isSecond, starts, ends, collide⟩ := stands
  have pair : [first, second].Sublist before.imports := by
    obtain ⟨others, split⟩ := List.head?_eq_some_iff.1 isFirst
    rw [split, List.tail_cons] at isSecond
    obtain ⟨rest, rfl⟩ := List.head?_eq_some_iff.1 isSecond
    simp [split]
  obtain ⟨added, left, unit, brought, foundThen, fails, crowds⟩ := alignImports_fails_iff found []
  -- no name is missing, so the unit whose imports collide is the unit from before
  have same : left = importsOnOneLine := by
    rw [nothing] at brought
    cases brought
    rfl
  subst same
  cases found.symm.trans foundThen
  have solid : before.StandOut first.statement second.statement := ⟨starts, ends⟩
  exact ⟨before, added, importsOnOneLine, before, found, brought, found, fails, first, second, pair,
    solid, collide, ((crowds first second pair solid).1 collide).2.2⟩

/-- The second removal takes the blank as its indentation, the first one as the rest of its line. -/
theorem not_aligns_importsOnOneLine :
    (∀ unit ∈ importsOnOneLine.units, Tree.hasErrors unit.text = false) ∧
      ∃ error left, alignImports [] ⟨"a.ts"⟩ importsOnOneLine = .error error left ∧
        error.message = "overlapping edits in a.ts: 0..20 and 19..39" := by
  refine ⟨by decide +kernel, ?_⟩
  have fails : failsWith (fun error _ =>
      decide (error.message = "overlapping edits in a.ts: 0..20 and 19..39"))
      (alignImports [] ⟨"a.ts"⟩ importsOnOneLine) = true := by
    decide +kernel
  obtain ⟨error, left, ran, message⟩ := exists_of_failsWith fails
  exact ⟨error, left, ran, of_decide_eq_true message⟩

end Project

end CreatorMigration
