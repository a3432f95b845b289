import CreatorMigration.Proofs.Tree.Placement
import CreatorMigration.Proofs.Unit.Removal
import CreatorMigration.Unit.Declaration
import CreatorMigration.Unit.Import

/-! # Spans of a unit

The statements, declarations and imports of a unit span characters of its text, so whatever is to
replace one of them is in bounds.
-/

namespace CreatorMigration

namespace SourceUnit

variable {unit : SourceUnit} {place : Place}

theorem isPlaced_tree (unit : SourceUnit) : unit.tree.IsPlaced unit.text :=
  unit.tree_eq ▸ Tree.isPlaced_parse unit.text

/-! ## Statements -/

theorem mem_childPlaces_of_mem_topLevel (member : place ∈ unit.topLevel) :
    place ∈ unit.tree.childPlaces :=
  (List.mem_filter.1 member).1

theorem isPlaced_of_mem_topLevel (member : place ∈ unit.topLevel) :
    place.node.IsPlaced unit.text := by
  refine unit.isPlaced_tree.child ?_
  rw [← unit.tree.map_node_childPlaces]
  exact List.mem_map_of_mem (mem_childPlaces_of_mem_topLevel member)

/-- The statements of a unit stand one behind the other. -/
theorem inOrder_topLevel (unit : SourceUnit) :
    Span.InOrder unit.text unit.tree.span.start unit.tree.span.stop
      (unit.topLevel.map fun place => place.node.span) := by
  refine unit.isPlaced_tree.children.inOrder.sublist ?_
  rw [← unit.tree.map_node_childPlaces, List.map_map]
  exact List.filter_sublist.map _

theorem mem_before_of_docAbove? {comment : Node} (found : unit.docAbove? place = some comment) :
    comment ∈ place.before := by
  obtain ⟨above, _⟩ := Option.filter_eq_some_iff.1 found
  unfold commentAbove? at above
  dsimp only at above
  split at above
  · cases above
  · next previous rest before =>
    split at above
    · cases above
      rw [before]
      exact List.mem_cons_self
    · cases above

/-- A statement with the doc comment above it. -/
def documented (unit : SourceUnit) (place : Place) : Span :=
  ⟨unit.documentedStart place, place.node.span.stop⟩

theorem isIn_documented (member : place ∈ unit.topLevel) :
    (unit.documented place).IsIn unit.text ∧
      unit.documentedStart place ≤ place.node.span.start := by
  have own := (isPlaced_of_mem_topLevel member).isIn
  rw [documented, documentedStart]
  cases found : unit.docAbove? place with
  | none => exact ⟨own, Nat.le_refl _⟩
  | some comment =>
    obtain ⟨placed, inFront⟩ := unit.isPlaced_tree.before
      (mem_childPlaces_of_mem_topLevel member) (mem_before_of_docAbove? found)
    have above := placed.isIn.ordered.trans inFront
    exact ⟨⟨above.trans own.ordered, placed.isIn.start_isBoundary, own.stop_isBoundary⟩, above⟩

theorem removalSpan_eq (unit : SourceUnit) (place : Place) :
    unit.removalSpan place = unit.removalSpanOf (unit.documented place) := rfl

theorem isIn_removalSpan (member : place ∈ unit.topLevel) :
    (unit.removalSpan place).IsIn unit.text :=
  isIn_removalSpanOf (isIn_documented member).1

/-! ## Declarations -/

/-- What a statement declares is carried by itself or by one of its children. -/
theorem ofStatement_eq (place : Place) :
    Declaration.ofStatement place = [] ∨
      ∃ kind declaring exported, (declaring = place.node ∨ declaring ∈ place.node.children) ∧
        Declaration.ofStatement place = (Declaration.carriers kind declaring).map
          fun node => ⟨kind, node, place, exported⟩ := by
  rw [Declaration.ofStatement]
  split
  · exact .inl rfl
  · next declaring declares =>
    split
    · exact .inl rfl
    · next kind _ =>
      refine .inr ⟨kind, declaring, place.node.kind == .exportStatement, ?_, rfl⟩
      split at declares
      · exact .inr (List.mem_of_find?_eq_some declares)
      · exact .inl (Option.some.inj declares).symm

section

variable {declaration : Declaration}

theorem statement_of_mem_ofStatement (member : declaration ∈ Declaration.ofStatement place) :
    declaration.statement = place := by
  rcases ofStatement_eq place with none | ⟨kind, declaring, exported, _, all⟩
  · simp [none] at member
  · rw [all] at member
    obtain ⟨node, _, rfl⟩ := List.mem_map.1 member
    rfl

theorem mem_topLevel_of_mem_declarations (member : declaration ∈ unit.declarations) :
    declaration.statement ∈ unit.topLevel := by
  obtain ⟨place, placeMember, declared⟩ := List.mem_flatMap.1 member
  rwa [statement_of_mem_ofStatement declared]

/-- What a declaration carries stands inside its statement. -/
theorem isPlaced_of_mem_declarations (member : declaration ∈ unit.declarations) :
    declaration.node.IsPlaced unit.text ∧
      declaration.statement.node.span.start ≤ declaration.node.span.start := by
  obtain ⟨place, placeMember, declared⟩ := List.mem_flatMap.1 member
  have placed := isPlaced_of_mem_topLevel placeMember
  rcases ofStatement_eq place with none | ⟨kind, declaring, exported, within, all⟩
  · simp [none] at declared
  · rw [all] at declared
    obtain ⟨node, carrier, rfl⟩ := List.mem_map.1 declared
    have inside {outer inner : Node} (fits : outer.IsPlaced unit.text)
        (within : inner = outer ∨ inner ∈ outer.children) :
        inner.IsPlaced unit.text ∧ outer.span.start ≤ inner.span.start := by
      rcases within with rfl | child
      · exact ⟨fits, Nat.le_refl _⟩
      · exact ⟨fits.child child, (fits.children.inOrder.isIn (List.mem_map_of_mem child)).1⟩
    obtain ⟨declaringFits, behind⟩ := inside placed within
    have carried : node = declaring ∨ node ∈ declaring.children := by
      unfold Declaration.carriers at carrier
      split at carrier
      · exact .inr (List.mem_filter.1 (List.mem_filter.1 carrier).1).1
      · exact .inl (List.mem_singleton.1 carrier)
    obtain ⟨nodeFits, behindThen⟩ := inside declaringFits carried
    exact ⟨nodeFits, behind.trans behindThen⟩

end

/-- A statement declares at most one thing of a kind, other than variables. -/
theorem sublist_ofStatement {kind : DeclarationKind} (single : kind ≠ .variable) (place : Place) :
    (((Declaration.ofStatement place).filter fun declaration =>
      decide (declaration.kind = kind)).map Declaration.statement).Sublist [place] := by
  rcases ofStatement_eq place with none | ⟨other, declaring, exported, _, all⟩
  · rw [none]
    exact List.nil_sublist _
  · rw [all, List.filter_map, List.map_map]
    by_cases same : other = kind
    · have one : Declaration.carriers other declaring = [declaring] := by
        rw [Declaration.carriers, same, if_neg single]
      rw [one]
      exact List.filter_sublist.map _
    · rw [List.filter_eq_nil_iff.2 (by simp [same])]
      exact List.nil_sublist _

theorem inOrder_declarationsOfKind {kind : DeclarationKind} (single : kind ≠ .variable)
    (unit : SourceUnit) :
    Span.InOrder unit.text unit.tree.span.start unit.tree.span.stop
      ((unit.declarationsOfKind kind).map fun declaration => declaration.statement.node.span) := by
  have statements (places : List Place) :
      (((places.flatMap Declaration.ofStatement).filter fun declaration =>
        decide (declaration.kind = kind)).map Declaration.statement).Sublist places := by
    induction places with
    | nil => exact List.nil_sublist _
    | cons first rest inductionHypothesis =>
      rw [List.flatMap_cons, List.filter_append, List.map_append]
      exact (sublist_ofStatement single first).append inductionHypothesis
  have spans := (statements unit.topLevel).map fun place : Place => place.node.span
  rw [List.map_map] at spans
  exact unit.inOrder_topLevel.sublist spans

end SourceUnit

/-! ## Imports -/

/-- The statement, the braces and the names of an import span characters of a text. -/
structure Import.Fits (text : String) (read : Import) : Prop where
  statement : read.statement.IsIn text
  namedSpan : ∀ list ∈ read.namedSpan, list.IsIn text
  named : ∀ specifier ∈ read.named, specifier.span.IsIn text

namespace Import

theorem fits_readPart {text : String} {statement : Import} {part : Node}
    (fits : statement.Fits text) (placed : part.IsPlaced text) :
    (readPart text statement part).Fits text := by
  unfold readPart
  split
  · exact ⟨fits.statement, fits.namedSpan, fits.named⟩
  · split
    · exact ⟨fits.statement, fits.namedSpan, fits.named⟩
    · split
      · refine ⟨fits.statement, by simp [placed.isIn], List.forall_mem_append.2 ⟨fits.named, ?_⟩⟩
        intro specifier member
        obtain ⟨node, nodeMember, read⟩ := List.mem_filterMap.1 member
        have nodeFits := placed.child (List.mem_filter.1 nodeMember).1
        unfold readSpecifier at read
        split at read
        · obtain ⟨name, _, rfl⟩ := Option.map_eq_some_iff.1 read
          exact nodeFits.isIn
        · cases read
      · exact fits

theorem fits_foldl_readPart {text : String} {parts : List Node} {statement : Import}
    (fits : statement.Fits text) (placed : ∀ part ∈ parts, part.IsPlaced text) :
    (parts.foldl (readPart text) statement).Fits text := by
  induction parts generalizing statement with
  | nil => exact fits
  | cons first rest inductionHypothesis =>
    obtain ⟨firstPlaced, restPlaced⟩ := List.forall_mem_cons.1 placed
    exact inductionHypothesis (fits_readPart fits firstPlaced) restPlaced

theorem fits_ofNode? {text : String} {node : Node} {statement : Import}
    (read : ofNode? text node = some statement) (placed : node.IsPlaced text) :
    statement.Fits text := by
  obtain ⟨source, _, rfl⟩ := Option.map_eq_some_iff.1 read
  dsimp only
  split
  · next clause found =>
    refine fits_foldl_readPart ⟨placed.isIn, by simp, by simp⟩ fun part member => ?_
    have clauseFits := placed.child (List.mem_of_find?_eq_some found)
    exact clauseFits.child (List.mem_filter.1 member).1
  · exact ⟨placed.isIn, by simp, by simp⟩

end Import

namespace SourceUnit

variable {unit : SourceUnit}

theorem isPlaced_of_mem_topLevelOf {kind : Kind} {node : Node}
    (member : node ∈ unit.topLevelOf kind) : node.IsPlaced unit.text := by
  obtain ⟨place, placeMember, rfl⟩ := List.mem_map.1 (List.mem_filter.1 member).1
  exact isPlaced_of_mem_topLevel placeMember

theorem fits_of_mem_imports {statement : Import} (member : statement ∈ unit.imports) :
    statement.Fits unit.text := by
  obtain ⟨node, nodeMember, read⟩ := List.mem_filterMap.1 member
  exact Import.fits_ofNode? read (isPlaced_of_mem_topLevelOf nodeMember)

theorem isBoundary_importsEnd (unit : SourceUnit) :
    Text.isBoundary unit.text unit.importsEnd = true := by
  have greatest (offsets : List Nat) (found : Nat)
      (boundary : Text.isBoundary unit.text found = true)
      (boundaries : ∀ offset ∈ offsets, Text.isBoundary unit.text offset = true) :
      Text.isBoundary unit.text (offsets.foldl max found) = true := by
    induction offsets generalizing found with
    | nil => exact boundary
    | cons first rest inductionHypothesis =>
      obtain ⟨firstBoundary, restBoundaries⟩ := List.forall_mem_cons.1 boundaries
      refine inductionHypothesis _ ?_ restBoundaries
      rcases max_choice found first with same | same <;> rw [same] <;> assumption
  refine greatest _ 0 (Text.isBoundary_zero _) fun offset member => ?_
  obtain ⟨node, nodeMember, rfl⟩ := List.mem_map.1 member
  exact (isPlaced_of_mem_topLevelOf nodeMember).isIn.stop_isBoundary

end SourceUnit

end CreatorMigration
