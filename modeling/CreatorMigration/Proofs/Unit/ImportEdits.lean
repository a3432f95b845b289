import CreatorMigration.Proofs.Project.Collisions
import CreatorMigration.Proofs.Tree.Clauses
import CreatorMigration.Proofs.Unit.Contents

/-! # Edits of import statements

The edits of an alignment write inside of an import statement, add one or take one out. What such a
statement says is read from its clause, which has a list or a name space, and never both.
-/

namespace CreatorMigration

open String (utf8Len)

namespace Import

/-! ## What a clause says -/

/-- What an import says is read from parts of its clause. -/
structure ReadFrom (text : String) (parts : List Node) (statement : Import) : Prop where
  named : ∀ specifier ∈ statement.named,
    ∃ part ∈ parts, ∃ node ∈ part.namedParts, readSpecifier text node = some specifier
  listed : statement.named ≠ [] → statement.namedSpan.isSome = true
  list : statement.namedSpan.isSome = true → ∃ part ∈ parts, part.kind = .namedImports
  space : statement.namespaceName ≠ none → ∃ part ∈ parts, part.kind = .namespaceImport

section

variable {text : String} {parts : List Node} {statement : Import}

theorem readFrom_bare (named : statement.named = []) (list : statement.namedSpan = none)
    (space : statement.namespaceName = none) : ReadFrom text [] statement :=
  ⟨by simp [named], by simp [named], by simp [list], by simp [space]⟩

theorem ReadFrom.snoc (read : ReadFrom text parts statement) (part : Node) :
    ReadFrom text (parts ++ [part]) (readPart text statement part) := by
  have more {property : Node → Prop} (found : ∃ own ∈ parts, property own) :
      ∃ own ∈ parts ++ [part], property own := by
    obtain ⟨own, member, holds⟩ := found
    exact ⟨own, List.mem_append_left _ member, holds⟩
  have same : ReadFrom text (parts ++ [part]) statement :=
    ⟨fun specifier member => more (read.named specifier member), read.listed,
      fun listed => more (read.list listed), fun space => more (read.space space)⟩
  unfold readPart
  split
  · exact ⟨same.named, same.listed, same.list, same.space⟩
  · split
    · next space => exact ⟨same.named, same.listed, same.list, fun _ => ⟨part, by simp, space⟩⟩
    · split
      · next list =>
        refine ⟨fun specifier member => ?_, fun _ => rfl, fun _ => ⟨part, by simp, list⟩,
          same.space⟩
        cases List.mem_append.1 member with
        | inl earlier => exact same.named specifier earlier
        | inr own =>
          obtain ⟨node, nodeMember, readNode⟩ := List.mem_filterMap.1 own
          exact ⟨part, by simp, node, nodeMember, readNode⟩
      · exact same

theorem ReadFrom.foldl (read : ReadFrom text parts statement) (others : List Node) :
    ReadFrom text (parts ++ others) (others.foldl (readPart text) statement) := by
  induction others generalizing parts statement with
  | nil => simpa using read
  | cons part rest inductionHypothesis => simpa using inductionHypothesis (read.snoc part)

end

section

variable {text : String} {node : Node} {statement : Import}

/-- A statement without a clause imports nothing. -/
theorem readFrom_of_ofNode? (read : ofNode? text node = some statement) :
    ReadFrom text [] statement ∨ ∃ clause ∈ node.children, clause.kind = .importClause ∧
      ReadFrom text clause.namedParts statement := by
  obtain ⟨source, _, rfl⟩ := Option.map_eq_some_iff.1 read
  dsimp only
  split
  · next clause found =>
    have kind : clause.kind = .importClause := by simpa using List.find?_some found
    refine .inr ⟨clause, List.mem_of_find?_eq_some found, kind, ?_⟩
    exact (readFrom_bare rfl rfl rfl).foldl clause.namedParts
  · exact .inl (readFrom_bare rfl rfl rfl)

/-- The names of an import stand inside its statement. -/
theorem contains_of_mem_named (read : ofNode? text node = some statement)
    (placed : node.IsPlaced text) {specifier : ImportSpecifier}
    (member : specifier ∈ statement.named) :
    statement.statement.contains specifier.span = true := by
  rw [statement_of_ofNode? read]
  rcases readFrom_of_ofNode? read with none | ⟨clause, clauseChild, _, found⟩
  · obtain ⟨part, partMember, _⟩ := none.named specifier member
    simp at partMember
  · obtain ⟨part, partMember, own, ownMember, readOwn⟩ := found.named specifier member
    have partChild : part ∈ clause.children := (List.mem_filter.1 partMember).1
    have ownChild : own ∈ part.children := (List.mem_filter.1 ownMember).1
    have span : specifier.span = own.span := by
      unfold readSpecifier at readOwn
      split at readOwn
      · obtain ⟨name, _, rfl⟩ := Option.map_eq_some_iff.1 readOwn
        rfl
      · cases readOwn
    have inClause := placed.children.inOrder.isIn (List.mem_map_of_mem clauseChild)
    have clausePlaced := placed.child clauseChild
    have inPart := clausePlaced.children.inOrder.isIn (List.mem_map_of_mem partChild)
    have partPlaced := clausePlaced.child partChild
    have inOwn := partPlaced.children.inOrder.isIn (List.mem_map_of_mem ownChild)
    rw [span]
    exact Span.contains_iff.2 ⟨(inClause.1.trans inPart.1).trans inOwn.1,
      (inOwn.2.2.trans inPart.2.2).trans inClause.2.2⟩

end

end Import

namespace SourceUnit

variable {unit : SourceUnit} {statement : Import}

theorem exists_node_of_mem_imports (member : statement ∈ unit.imports) :
    ∃ node ∈ unit.tree.children, node.kind = .importStatement ∧ node.IsPlaced unit.text ∧
      Import.ofNode? unit.text node = some statement := by
  obtain ⟨node, nodeMember, read⟩ := List.mem_filterMap.1 member
  obtain ⟨top, kind⟩ := List.mem_filter.1 nodeMember
  obtain ⟨place, placeMember, rfl⟩ := List.mem_map.1 top
  refine ⟨place.node, ?_, by simpa using kind, isPlaced_of_mem_topLevel placeMember, read⟩
  rw [← unit.tree.map_node_childPlaces]
  exact List.mem_map_of_mem (mem_childPlaces_of_mem_topLevel placeMember)

/-- Every import statement has a list or a name space at most. -/
theorem oneList_of_mem_imports (member : statement ∈ unit.imports) :
    statement.contents.OneList := by
  obtain ⟨node, child, kind, _, read⟩ := exists_node_of_mem_imports member
  rcases Import.readFrom_of_ofNode? read with none | ⟨clause, clauseChild, isClause, found⟩
  · refine ⟨fun named => none.listed (by simpa [Import.contents] using named), fun listed => ?_⟩
    obtain ⟨part, partMember, _⟩ := none.list listed
    simp at partMember
  · refine ⟨fun named => found.listed (by simpa [Import.contents] using named), fun listed => ?_⟩
    by_contra space
    obtain ⟨list, listMember, isList⟩ := found.list listed
    obtain ⟨part, partMember, isSpace⟩ := found.space space
    rw [unit.tree_eq] at child
    -- the grammar reads one of them only
    cases Tree.isLone_of_importStatement child kind clauseChild isClause with
    | inl noSpace => exact noSpace part (List.mem_filter.1 partMember).1 isSpace
    | inr noList => exact noList list (List.mem_filter.1 listMember).1 isList

/-! ## Edits of import statements -/

/-- An edit writes inside of an import statement, adds one behind the others, or takes one out with
spacing around it. -/
inductive EditsImports (unit : SourceUnit) : Edit → Prop where
  | within {statement : Import} {edit : Edit} (member : statement ∈ unit.imports)
      (inside : statement.statement.contains edit.span = true) : EditsImports unit edit
  | adding (name module : String) : EditsImports unit (unit.newImportEdit name module)
  | removing {statement : Import} {front lead middle trail back : List Char}
      (member : statement ∈ unit.imports)
      (chars : unit.text.toList = front ++ lead ++ middle ++ trail ++ back)
      (own : statement.statement =
        ⟨utf8Len (front ++ lead), utf8Len (front ++ lead) + utf8Len middle⟩)
      (spacing : ∀ c ∈ lead ++ trail, isSpacing c = true) :
      EditsImports unit
        (Edit.delete ⟨utf8Len front, utf8Len front + utf8Len (lead ++ middle ++ trail)⟩)

theorem editsImports_joinEdit (member : statement ∈ unit.imports) {list : Span}
    (braces : statement.namedSpan = some list) (name : String) :
    unit.EditsImports (joinEdit name statement list) := by
  unfold joinEdit
  split
  · next last found =>
    obtain ⟨node, _, _, placed, read⟩ := exists_node_of_mem_imports member
    have inside := Span.contains_iff.1
      (Import.contains_of_mem_named read placed (List.mem_of_getLast? found))
    have ordered : last.span.start ≤ last.span.stop :=
      ((fits_of_mem_imports member).named last (List.mem_of_getLast? found)).ordered
    exact .within member (Span.contains_iff.2 ⟨inside.1.trans ordered, inside.2⟩)
  · exact .within member (contains_of_mem_imports member braces)

theorem editsImports_of_importEdit? {name module : String} {isSameModule : Import → Bool}
    {edit : Edit} (made : unit.importEdit? name module isSameModule = some edit) :
    unit.EditsImports edit := by
  have imports : unit.Imports name (fun _ => True) edit :=
    imports_of_importEdit? made (fun _ _ _ => trivial) trivial
  cases imports with
  | joining member _ braces _ => exact editsImports_joinEdit member braces name
  | adding _ => exact .adding name _

theorem editsImports_of_mem_unusedImportEdits {mentioned : List String} {edit : Edit}
    (member : edit ∈ unit.unusedImportEdits mentioned) : unit.EditsImports edit := by
  rw [unusedImportEdits_eq] at member
  obtain ⟨statement, statementMember, drops⟩ := List.mem_filterMap.1 member
  by_cases emptied : IsEmptied mentioned statement
  · rw [dropEdit?_of_isEmptied unit emptied, Option.some.injEq] at drops
    subst drops
    obtain ⟨before, middle, behind, chars, own⟩ :=
      Span.isIn_iff_exists.1 (fits_of_mem_imports statementMember).statement
    obtain ⟨front, lead, trail, back, rfl, rfl, spacing, widened⟩ :=
      widens_removalSpanOf unit before middle behind chars
    rw [own, widened]
    exact .removing statementMember (by simpa using chars) (by simpa using own) spacing
  · exact .within statementMember (contains_of_dropEdit? statementMember emptied drops)

/-- The unit changes in its import statements and in the spacing around those that are taken out. -/
def ChangesImports (unit changed : SourceUnit) : Prop :=
  ∃ edits, (∀ edit ∈ edits, unit.EditsImports edit) ∧ unit.apply edits = .ok changed

end SourceUnit

end CreatorMigration
