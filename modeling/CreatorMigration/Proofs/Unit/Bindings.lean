import CreatorMigration.Proofs.Project.Alignment
import CreatorMigration.Proofs.Tree.Places

/-! # Names that a unit introduces

`SourceUnit.Introduces` says which names the constructs of a unit introduce, as the language has it;
`SourceUnit.namesBound` is what the unit is taken to bind. `SourceUnit.mem_namesBound_iff` compares
the two: some constructs are overlooked, and in patterns some names are bound that are only read.
-/

namespace CreatorMigration

namespace Node

/-! ## Patterns -/

/-- The parts of a pattern that are patterns themselves. Keys and default values are not. -/
def targets (pattern : Node) : List Node :=
  match pattern.kind with
  | .objectPattern | .arrayPattern | .restPattern => pattern.namedParts
  | .pairPattern => (pattern.child? .value).toList
  | .assignmentPattern | .objectAssignmentPattern => pattern.namedParts.head?.toList
  | _ => []

/-- The kinds of the names that stand in a pattern. -/
def isPatternName (node : Node) : Bool :=
  node.kind == .identifier || node.kind == .shorthandPropertyIdentifierPattern

/-- Whether a node below `parent?` is the key of a property in a pattern. -/
def isKeyBelow (parent? : Option Node) (node : Node) : Bool :=
  node.role == some .key && parent?.any fun parent => parent.kind == .pairPattern

/-- The pattern declares the name that the node `name` is. -/
inductive Declares : Node → Node → Prop where
  | itself {name : Node} (isName : name.isPatternName = true) : Declares name name
  | part {pattern target name : Node} (member : target ∈ pattern.targets)
      (declares : Declares target name) : Declares pattern name

/-- The pattern has the name `name` in what it only reads: in a default value, in a computed key or
in what a property is assigned to. -/
inductive Reads : Node → Node → Prop where
  | beside {pattern child name : Node} {parent? : Option Node} (member : child ∈ pattern.children)
      (noTarget : child ∉ pattern.targets) (occurs : Occurs (some pattern) child parent? name)
      (isName : name.isPatternName = true) (noKey : isKeyBelow parent? name = false) :
      Reads pattern name
  | part {pattern target name : Node} (member : target ∈ pattern.targets)
      (reads : Reads target name) : Reads pattern name

theorem mem_children_of_mem_targets {pattern target : Node} (member : target ∈ pattern.targets) :
    target ∈ pattern.children := by
  unfold targets at member
  split at member
  · exact (List.mem_filter.1 member).1
  · exact (List.mem_filter.1 member).1
  · exact (List.mem_filter.1 member).1
  · exact List.mem_of_find?_eq_some (Option.mem_toList.1 member)
  · exact (List.mem_filter.1 (List.mem_of_head? (Option.mem_toList.1 member))).1
  · exact (List.mem_filter.1 (List.mem_of_head? (Option.mem_toList.1 member))).1
  · cases member

/-- The value of a property is not its key. -/
theorem isKeyBelow_of_mem_targets {pattern target : Node} (member : target ∈ pattern.targets) :
    isKeyBelow (some pattern) target = false := by
  by_cases pair : pattern.kind = .pairPattern
  · simp only [targets, pair, Option.mem_toList] at member
    have value := List.find?_some member
    simp only [beq_iff_eq] at value
    simp [isKeyBelow, value]
  · simp [isKeyBelow, pair]

/-- A name that stands in a pattern, other than as a key, is declared there or read. -/
theorem declares_or_reads_of_occurs {above parent? : Option Node} {pattern name : Node}
    (occurs : Occurs above pattern parent? name) (isName : name.isPatternName = true)
    (noKey : isKeyBelow parent? name = false) : Declares pattern name ∨ Reads pattern name := by
  induction occurs with
  | here => exact .inl (.itself isName)
  | @within above parent? pattern child name member occurs inductionHypothesis =>
    by_cases target : child ∈ pattern.targets
    · cases inductionHypothesis isName noKey with
      | inl declares => exact .inl (.part target declares)
      | inr reads => exact .inr (.part target reads)
    · exact .inr (.beside member target occurs isName noKey)

theorem Declares.exists_occurs {pattern name : Node} (declares : Declares pattern name)
    {above : Option Node} (noKey : isKeyBelow above pattern = false) :
    ∃ parent?, Occurs above pattern parent? name ∧ name.isPatternName = true ∧
      isKeyBelow parent? name = false := by
  induction declares generalizing above with
  | itself isName => exact ⟨above, .here, isName, noKey⟩
  | part member _ inductionHypothesis =>
    obtain ⟨parent?, occurs, rest⟩ := inductionHypothesis (isKeyBelow_of_mem_targets member)
    exact ⟨parent?, .within (mem_children_of_mem_targets member) occurs, rest⟩

theorem Reads.exists_occurs {pattern name : Node} (reads : Reads pattern name)
    (above : Option Node) :
    ∃ parent?, Occurs above pattern parent? name ∧ name.isPatternName = true ∧
      isKeyBelow parent? name = false := by
  induction reads generalizing above with
  | beside member _ occurs isName noKey => exact ⟨_, .within member occurs, isName, noKey⟩
  | part member _ inductionHypothesis =>
    obtain ⟨parent?, occurs, rest⟩ := inductionHypothesis _
    exact ⟨parent?, .within (mem_children_of_mem_targets member) occurs, rest⟩

end Node

namespace SourceUnit

open Node

theorem bindsInPattern_eq (place : Place) :
    bindsInPattern place = (place.node.isPatternName && !isKeyBelow place.parent? place.node) := rfl

/-- What a binding binds: the name that it is, or the names that stand in its pattern. -/
theorem mem_boundNodes_iff {binding name : Node} :
    name ∈ boundNodes binding ↔
      (bindsItself binding = true ∧ name = binding) ∨
        (bindsItself binding = false ∧ (Declares binding name ∨ Reads binding name)) := by
  unfold boundNodes
  by_cases itself : bindsItself binding = true
  · simp [itself]
  · have pattern : bindsItself binding = false := by simpa using itself
    simp only [pattern, Bool.false_eq_true, if_false, false_and, false_or, true_and, List.mem_map,
      List.mem_filter, bindsInPattern_eq, Bool.and_eq_true, Bool.not_eq_true']
    constructor
    · rintro ⟨place, ⟨member, isName, noKey⟩, rfl⟩
      exact declares_or_reads_of_occurs (exists_mem_places_iff.1 ⟨place, member, rfl, rfl⟩) isName
        noKey
    · intro inPattern
      have stands : ∃ parent?, Occurs none binding parent? name ∧ name.isPatternName = true ∧
          isKeyBelow parent? name = false := by
        cases inPattern with
        | inl declares => exact declares.exists_occurs (by simp [isKeyBelow])
        | inr reads => exact reads.exists_occurs none
      obtain ⟨parent?, occurs, isName, noKey⟩ := stands
      obtain ⟨place, member, rfl, rfl⟩ := exists_mem_places_iff.2 occurs
      exact ⟨place, ⟨member, isName, noKey⟩, rfl⟩

/-! ## Constructs -/

/-- The outermost name space of a dotted name. The name of a module in quotes is none. -/
def outermostName? (name : Node) : Option Node :=
  name.descendants.find? fun node => node.kind == .identifier

/-- Whether a loop over a list declares its variable. -/
def declaresVariable (text : String) (loop : Node) : Bool :=
  loop.parts.any fun child =>
    !child.isNamed && ["var", "let", "const"].contains (child.textIn text)

/-- The name or the pattern that a construct introduces, whatever the construct. -/
def introduction? (text : String) (node : Node) : Option Node :=
  match node.kind with
  | .importSpecifier => (node.child? .otherName).orElse fun _ => node.child? .name
  | .importClause | .namespaceImport | .importRequireClause | .importAlias =>
      node.childOfKind? .identifier
  | .variableDeclarator | .functionDeclaration | .generatorFunctionDeclaration
  | .functionSignature | .functionExpression | .generatorFunction | .classDeclaration
  | .abstractClassDeclaration | .classExpression | .enumDeclaration | .interfaceDeclaration
  | .typeAliasDeclaration | .typeParameter | .mappedTypeClause | .indexSignature =>
      node.child? .name
  | .inferType => node.childOfKind? .typeIdentifier
  | .internalModule | .externalModule => (node.child? .name).bind outermostName?
  | .requiredParameter | .optionalParameter => node.child? .pattern
  | .arrowFunction | .catchClause => node.child? .parameter
  | .forInStatement => if declaresVariable text node then node.namedParts.head? else none
  | _ => none

/-- The constructs whose names a unit is not taken to bind. -/
def isOverlooked : Kind → Bool
  | .importRequireClause | .importAlias | .functionSignature | .functionExpression
  | .generatorFunction | .classExpression | .mappedTypeClause | .indexSignature | .inferType
  | .internalModule | .externalModule | .forInStatement => true
  | _ => false

/-- A construct of the kind introduces the name, by itself or in a pattern. -/
def Introduces (unit : SourceUnit) (kind : Kind) (name : String) : Prop :=
  ∃ node ∈ unit.tree.descendants, node.kind = kind ∧
    ∃ binding ∈ introduction? unit.text node, ∃ leaf,
      (bindsItself binding = true ∧ leaf = binding ∨
        bindsItself binding = false ∧ Declares binding leaf) ∧ unit.textOf leaf = name

/-- The name is read in a pattern that declares others. -/
def ReadsInPattern (unit : SourceUnit) (name : String) : Prop :=
  ∃ node ∈ unit.tree.descendants, isOverlooked node.kind = false ∧
    ∃ binding ∈ introduction? unit.text node, bindsItself binding = false ∧
      ∃ leaf, Reads binding leaf ∧ unit.textOf leaf = name

/-- The name is that of a property in a pattern, which may declare the name or assign to it. -/
def NamesProperty (unit : SourceUnit) (name : String) : Prop :=
  ∃ node ∈ unit.tree.descendants, node.kind = .shorthandPropertyIdentifierPattern ∧
    unit.textOf node = name

/-- What a node is taken to bind is what it introduces, where it is not overlooked. -/
theorem mem_binding?_iff (text : String) {node binding : Node} :
    binding ∈ binding? node ↔
      (isOverlooked node.kind = false ∧ binding ∈ introduction? text node) ∨
        (node.kind = .shorthandPropertyIdentifierPattern ∧ node = binding) := by
  unfold binding? introduction? isOverlooked
  cases node.kind <;> simp

theorem mem_namesBound {unit : SourceUnit} {name : String} :
    name ∈ unit.namesBound ↔ ∃ node ∈ unit.tree.descendants, ∃ binding ∈ binding? node,
      ∃ leaf ∈ boundNodes binding, unit.textOf leaf = name := by
  simp only [namesBound, Text.mem_nameSet, List.mem_map, List.mem_flatMap, List.mem_filterMap,
    Option.mem_def]
  constructor
  · rintro ⟨leaf, ⟨binding, ⟨node, member, binds⟩, leafMember⟩, same⟩
    exact ⟨node, member, binding, binds, leaf, leafMember, same⟩
  · rintro ⟨node, member, binding, binds, leaf, leafMember, same⟩
    exact ⟨leaf, ⟨binding, ⟨node, member, binds⟩, leafMember⟩, same⟩

/-- A unit is taken to bind what its constructs introduce, other than the overlooked ones, and also
what their patterns read and each property that a pattern names. -/
theorem mem_namesBound_iff {unit : SourceUnit} {name : String} :
    name ∈ unit.namesBound ↔
      (∃ kind, isOverlooked kind = false ∧ unit.Introduces kind name) ∨
        unit.ReadsInPattern name ∨ unit.NamesProperty name := by
  simp only [mem_namesBound, mem_boundNodes_iff, mem_binding?_iff unit.text]
  constructor
  · rintro ⟨node, member, binding, ⟨seen, introduces⟩ | ⟨property, rfl⟩, leaf, binds, same⟩
    · rcases binds with itself | ⟨pattern, declares | reads⟩
      · exact .inl ⟨_, seen, node, member, rfl, binding, introduces, leaf, .inl itself, same⟩
      · exact .inl ⟨_, seen, node, member, rfl, binding, introduces, leaf,
          .inr ⟨pattern, declares⟩, same⟩
      · exact .inr (.inl ⟨node, member, seen, binding, introduces, pattern, leaf, reads, same⟩)
    · have itself : bindsItself node = true := by simp [bindsItself, property]
      simp only [itself, true_and, Bool.true_eq_false, false_and, or_false] at binds
      subst binds
      exact .inr (.inr ⟨leaf, member, property, same⟩)
  · rintro (⟨_, seen, node, member, rfl, binding, introduces, leaf, binds, same⟩ |
      ⟨node, member, seen, binding, introduces, pattern, leaf, reads, same⟩ |
      ⟨node, member, property, same⟩)
    · refine ⟨node, member, binding, .inl ⟨seen, introduces⟩, leaf, ?_, same⟩
      exact binds.imp_right fun inPattern => ⟨inPattern.1, .inl inPattern.2⟩
    · exact ⟨node, member, binding, .inl ⟨seen, introduces⟩, leaf, .inr ⟨pattern, .inr reads⟩, same⟩
    · have itself : bindsItself node = true := by simp [bindsItself, property]
      exact ⟨node, member, node, .inr ⟨property, rfl⟩, node, .inl ⟨itself, rfl⟩, same⟩

/-- The unit is taken to bind the names that its constructs introduce, and no others. -/
def BindsExactly (unit : SourceUnit) : Prop :=
  ∀ name, name ∈ unit.namesBound ↔ ∃ kind, unit.Introduces kind name

theorem bindsExactly_iff {unit : SourceUnit} :
    unit.BindsExactly ↔
      (∀ kind name, isOverlooked kind = true → unit.Introduces kind name →
        name ∈ unit.namesBound) ∧
      ∀ name, unit.ReadsInPattern name ∨ unit.NamesProperty name →
        ∃ kind, unit.Introduces kind name := by
  constructor
  · intro exactly
    refine ⟨fun kind name _ introduces => (exactly name).2 ⟨kind, introduces⟩, fun name taken => ?_⟩
    exact (exactly name).1 (mem_namesBound_iff.2 (.inr taken))
  · rintro ⟨overlooked, taken⟩ name
    constructor
    · intro bound
      cases mem_namesBound_iff.1 bound with
      | inl seen => exact ⟨seen.choose, seen.choose_spec.2⟩
      | inr others => exact taken name others
    · rintro ⟨kind, introduces⟩
      by_cases seen : isOverlooked kind = true
      · exact overlooked kind name seen introduces
      · exact mem_namesBound_iff.2 (.inl ⟨kind, by simpa using seen, introduces⟩)

end SourceUnit

namespace Project

open SourceUnit Update

/-! ## Names that are not imported -/

/-- An alignment imports no name that the unit is taken to bind. That is each name that a construct
introduces, unless the construct is an overlooked one, and besides them each name that a pattern only
reads or that is a property of a pattern. -/
theorem alignImports_spares_bound {table : ImportTable} {path : Path} {project result : Project}
    {changes : ImportDifference} (ran : alignImports table path project = .ok changes result) :
    ∃ unit, project.unit? path = some unit ∧
      (∀ name ∈ changes.added, name ∈ unit.namesUsed ∧ name ∉ unit.namesBound) ∧
      (∀ name, name ∈ unit.namesBound ↔
        (∃ kind, isOverlooked kind = false ∧ unit.Introduces kind name) ∨
          unit.ReadsInPattern name ∨ unit.NamesProperty name) ∧
      (unit.BindsExactly ↔
        (∀ kind name, isOverlooked kind = true → unit.Introduces kind name →
          name ∈ unit.namesBound) ∧
        ∀ name, unit.ReadsInPattern name ∨ unit.NamesProperty name →
          ∃ kind, unit.Introduces kind name) := by
  obtain ⟨unit, brought, between, after, found, all, _, _, rfl⟩ := alignImports_eq_ok ran
  refine ⟨unit, found, fun name added => ?_, fun name => mem_namesBound_iff, bindsExactly_iff⟩
  exact mem_namesMissing.1 (subset_of_bringInAll all added)

/-- The variable of a loop has the name of what another unit exports. -/
def loopVariable : Project :=
  ofSources ⟨""⟩ {}
    [(⟨"x.ts"⟩, "export const x = 1;"), (⟨"u.ts"⟩, "for (const x of [1]) \x7b f(x); \x7d")]

theorem exists_aligned_loopVariable :
    ∃ changes result, alignImports [] ⟨"u.ts"⟩ loopVariable = .ok changes result ∧
      changes.added = ["x"] := by
  have succeeds : succeedsWith (fun changes _ => decide (changes.added = ["x"]))
      (alignImports [] ⟨"u.ts"⟩ loopVariable) = true := by
    decide +kernel
  obtain ⟨changes, result, ran, added⟩ := exists_of_succeedsWith succeeds
  exact ⟨changes, result, ran, of_decide_eq_true added⟩

theorem alignImports_spares_bound_loopVariable :
    ∃ changes result, alignImports [] ⟨"u.ts"⟩ loopVariable = .ok changes result ∧
      ∃ unit, loopVariable.unit? ⟨"u.ts"⟩ = some unit ∧
        ∀ name ∈ changes.added, name ∈ unit.namesUsed ∧ name ∉ unit.namesBound := by
  obtain ⟨changes, result, ran, _⟩ := exists_aligned_loopVariable
  obtain ⟨unit, found, unbound, _⟩ := alignImports_spares_bound ran
  exact ⟨changes, result, ran, unit, found, unbound⟩

/-- The loop introduces the name, and an import of it is added all the same. -/
theorem not_spares_loopVariable :
    ∃ unit changes result, loopVariable.unit? ⟨"u.ts"⟩ = some unit ∧
      Tree.hasErrors unit.text = false ∧ unit.Introduces .forInStatement "x" ∧
      alignImports [] ⟨"u.ts"⟩ loopVariable = .ok changes result ∧ changes.added = ["x"] := by
  have loops : ∃ unit ∈ loopVariable.unit? ⟨"u.ts"⟩, Tree.hasErrors unit.text = false ∧
      ∃ node ∈ unit.tree.descendants, node.kind = .forInStatement ∧
        ∃ binding ∈ introduction? unit.text node, bindsItself binding = true ∧
          unit.textOf binding = "x" := by
    decide +kernel
  obtain ⟨unit, found, reads, node, member, kind, binding, introduces, itself, named⟩ := loops
  obtain ⟨changes, result, ran, added⟩ := exists_aligned_loopVariable
  exact ⟨unit, changes, result, found, reads,
    ⟨node, member, kind, binding, introduces, binding, .inl ⟨itself, rfl⟩, named⟩, ran, added⟩

end Project

end CreatorMigration
