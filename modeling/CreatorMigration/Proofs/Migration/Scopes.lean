import CreatorMigration.Proofs.Migration.Surroundings
import CreatorMigration.Proofs.Unit.Bindings

/-! # Scopes

Which names are free in the statements of a clause, with the scopes of the language told apart.

* `Node.declared` lists the names that a pattern declares.
* `Node.boundOver` lists the names that a node binds over one of its children.
* `SourceUnit.freeNames` lists the names that some statements use and do not bind. Each of them
  stands in the statements as the name of a value (`SourceUnit.exists_of_mem_freeNames`).
-/

namespace CreatorMigration

namespace Node

/-! ## Patterns -/

/-- Whether a part of a node of the kind is a pattern; of some kinds only the first such part is. -/
def isTargetIn (kind : Kind) (part : Node) : Bool :=
  match kind with
  | .objectPattern | .arrayPattern | .restPattern | .assignmentPattern
  | .objectAssignmentPattern => part.isNamed && !part.isComment
  | .pairPattern => part.role == some .value
  | _ => false

def hasManyTargets : Kind → Bool
  | .objectPattern | .arrayPattern | .restPattern => true
  | _ => false

mutual

/-- The names that a pattern declares, in their order. -/
def declared : Node → List Node
  | node@⟨kind, _, _, children⟩ =>
      if node.isPatternName then [node] else declaredAmong kind children

def declaredAmong (kind : Kind) : List Node → List Node
  | [] => []
  | child :: rest =>
      if isTargetIn kind child then
        declared child ++ if hasManyTargets kind then declaredAmong kind rest else []
      else declaredAmong kind rest

end

theorem declaredAmong_eq (kind : Kind) (nodes : List Node) :
    declaredAmong kind nodes =
      (if hasManyTargets kind then nodes.filter (isTargetIn kind)
        else (nodes.find? (isTargetIn kind)).toList).flatMap declared := by
  induction nodes with
  | nil => simp [declaredAmong]
  | cons child rest inductionHypothesis =>
    rw [declaredAmong, inductionHypothesis, List.filter_cons, List.find?_cons]
    cases isTargetIn kind child <;> cases hasManyTargets kind <;> simp

theorem targets_eq (pattern : Node) :
    pattern.targets = if hasManyTargets pattern.kind then
        pattern.children.filter (isTargetIn pattern.kind)
      else (pattern.children.find? (isTargetIn pattern.kind)).toList := by
  obtain ⟨kind, role, span, children⟩ := pattern
  have first : (children.filter fun child => child.isNamed && !child.isComment).head? =
      children.find? fun child => child.isNamed && !child.isComment := List.head?_filter
  have none : children.find? (fun _ => false) = none := List.find?_eq_none.2 (by simp)
  unfold targets isTargetIn hasManyTargets namedParts child?
  cases kind
  case assignmentPattern | objectAssignmentPattern => exact congrArg Option.toList first
  case objectPattern | arrayPattern | restPattern | pairPattern => rfl
  -- no child of another kind of node is a target
  all_goals exact (congrArg Option.toList none).symm

theorem declared_eq (pattern : Node) :
    pattern.declared =
      if pattern.isPatternName then [pattern] else pattern.targets.flatMap declared := by
  rw [targets_eq, ← declaredAmong_eq]
  cases pattern
  rw [declared]

theorem targets_of_isPatternName {pattern : Node} (isName : pattern.isPatternName = true) :
    pattern.targets = [] := by
  rw [isPatternName, Bool.or_eq_true, beq_iff_eq, beq_iff_eq] at isName
  rcases isName with name | shorthand
  · rw [targets, name]
  · rw [targets, shorthand]

theorem mem_declared_iff {pattern name : Node} :
    name ∈ pattern.declared ↔ Declares pattern name := by
  constructor
  · intro member
    induction pattern using inductionOnChildren with
    | ofChildren pattern inductionHypothesis =>
      rw [declared_eq] at member
      split at member
      · next isName =>
        rw [List.mem_singleton.1 member]
        exact .itself isName
      · -- a target is a child, so the induction is on the children although targets are searched
        obtain ⟨target, targetMember, inTarget⟩ := List.mem_flatMap.1 member
        exact .part targetMember
          (inductionHypothesis target (mem_children_of_mem_targets targetMember) inTarget)
  · intro declares
    induction declares with
    | itself isName =>
      rw [declared_eq, if_pos isName]
      exact List.mem_singleton_self _
    | @part pattern target name member _ inductionHypothesis =>
      rw [declared_eq]
      split
      · next isName =>
        rw [targets_of_isPatternName isName] at member
        cases member
      · exact List.mem_flatMap_of_mem member inductionHypothesis

/-! ## What a scope binds -/

/-- The leaves that carry what a name or a pattern introduces. -/
def introduced (target : Node) : List Node :=
  if target.children.isEmpty then [target] else target.declared

/-- The names and patterns in a declaration of variables. -/
def variableTargets (declaration : Node) : List Node :=
  (declaration.namedParts.filter fun part => part.kind == .variableDeclarator).filterMap
    fun declarator => declarator.child? .name

/-- What a statement declares for the block that it stands in. -/
def scopedTargets (statement : Node) : List Node :=
  match statement.kind with
  | .lexicalDeclaration => statement.variableTargets
  | .functionDeclaration | .generatorFunctionDeclaration | .functionSignature
  | .classDeclaration | .abstractClassDeclaration | .enumDeclaration =>
      (statement.child? .name).toList
  | _ => []

/-- The variable of a loop over a list, where the loop declares it. -/
def loopTargets (text : String) (loop : Node) : List Node :=
  if loop.kind = .forInStatement ∧ SourceUnit.declaresVariable text loop = true then
    loop.namedParts.head?.toList
  else []

/-- Whether a loop over a list declares its variable for the whole function. -/
def declaresByVar (text : String) (loop : Node) : Bool :=
  loop.parts.any fun child => !child.isNamed && child.textIn text == "var"

mutual

/-- What is declared by `var` in a statement, for the whole function. -/
def hoistedTargets (text : String) : Node → List Node
  | node@⟨kind, _, _, children⟩ =>
      if kind = .variableDeclaration then node.variableTargets
      else if holdsStatements kind then
        (if declaresByVar text node then loopTargets text node else []) ++
          hoistedTargetsAll text children
      else []

def hoistedTargetsAll (text : String) : List Node → List Node
  | [] => []
  | child :: rest => hoistedTargets text child ++ hoistedTargetsAll text rest

end

/-- What the statements and members in a node introduce for the whole node. -/
def memberTargets (node : Node) : List Node :=
  match node.kind with
  | .statementBlock | .forStatement => node.namedParts.flatMap scopedTargets
  | .switchBody => (node.namedParts.flatMap namedParts).flatMap scopedTargets
  | .enumBody => node.namedParts.map fun member => (member.child? .name).getD member
  | _ => []

/-- The name of a function, a class or an enum, which is known in it. -/
def ownTargets (node : Node) : List Node :=
  match node.kind with
  | .functionDeclaration | .generatorFunctionDeclaration | .functionSignature
  | .functionExpression | .generatorFunction | .classDeclaration | .abstractClassDeclaration
  | .classExpression | .enumDeclaration => (node.child? .name).toList
  | _ => []

/-- The parameters of a function or of its type, and what a `catch` catches. -/
def parameterTargets (node : Node) : List Node :=
  ((node.child? .parameters).map fun list =>
      (SourceUnit.parameterNodes list).filterMap fun parameter =>
        parameter.child? .pattern).getD [] ++
    (node.child? .parameter).toList

/-- A name that only says what an index or a place in a tuple is for. -/
def labelTargets (node child : Node) : List Node :=
  match node.kind with
  | .indexSignature | .requiredParameter | .optionalParameter => [child]
  | _ => []

/-- What a node binds in one of its children. The name of a method may be computed, outside of its
parameters, and only the body of a function sees what is declared by `var` in it. -/
def targetsOver (text : String) (node child : Node) : List Node :=
  node.memberTargets ++ node.ownTargets ++ node.loopTargets text ++
    match child.role with
    | some .name => node.labelTargets child
    | some .body => node.parameterTargets ++ child.hoistedTargets text
    | _ => node.parameterTargets

def namesOf (text : String) (targets : List Node) : List String :=
  (targets.flatMap introduced).map (textIn text)

def boundOver (text : String) (node child : Node) : List String :=
  namesOf text (node.targetsOver text child)

/-! ## Free names -/

/-- Whether the node is the name of a value. Types, labels and members have names of other kinds. -/
def isValueName (node : Node) : Bool :=
  node.kind == .identifier || node.kind == .shorthandPropertyIdentifier ||
    node.kind == .shorthandPropertyIdentifierPattern

mutual

/-- The names of values in a node that nothing in it binds. The modules in front of the name of a
type name no values. -/
def freeLeaves (text : String) : Node → List Node
  | node@⟨kind, _, _, children⟩ =>
      if node.isValueName then [node]
      else if kind = .nestedTypeIdentifier then []
      else freeLeavesAll text node children

def freeLeavesAll (text : String) (parent : Node) : List Node → List Node
  | [] => []
  | child :: rest =>
      ((freeLeaves text child).filter fun leaf =>
          !(parent.boundOver text child).contains (leaf.textIn text)) ++
        freeLeavesAll text parent rest

end

theorem freeLeavesAll_eq (text : String) (parent : Node) (nodes : List Node) :
    freeLeavesAll text parent nodes = nodes.flatMap fun child =>
      (freeLeaves text child).filter fun leaf =>
        !(parent.boundOver text child).contains (leaf.textIn text) := by
  induction nodes with
  | nil => rfl
  | cons child rest inductionHypothesis =>
    rw [freeLeavesAll, inductionHypothesis, List.flatMap_cons]

theorem freeLeaves_eq (text : String) (node : Node) :
    node.freeLeaves text =
      if node.isValueName then [node]
      else if node.kind = .nestedTypeIdentifier then []
      else node.children.flatMap fun child =>
        (freeLeaves text child).filter fun leaf =>
          !(node.boundOver text child).contains (leaf.textIn text) := by
  obtain ⟨kind, role, span, children⟩ := node
  rw [freeLeaves, freeLeavesAll_eq]

/-- What is free in a node is the name of a value that stands in the node. -/
theorem isValueName_of_mem_freeLeaves {text : String} {node leaf : Node}
    (free : leaf ∈ node.freeLeaves text) : leaf ∈ node.descendants ∧ leaf.isValueName = true := by
  induction node using inductionOnChildren with
  | ofChildren node inductionHypothesis =>
    rw [freeLeaves_eq] at free
    split at free
    · next isName =>
      rw [List.mem_singleton.1 free]
      exact ⟨self_mem_descendants node, isName⟩
    · split at free
      · cases free
      · obtain ⟨child, member, inChild⟩ := List.mem_flatMap.1 free
        obtain ⟨inside, isName⟩ := inductionHypothesis child member (List.mem_filter.1 inChild).1
        exact ⟨mem_descendants_of_child member inside, isName⟩

end Node

namespace SourceUnit

variable (unit : SourceUnit)

/-- The names that some statements of one block bind around themselves. -/
def namesScoped (statements : List Node) : List String :=
  Node.namesOf unit.text (statements.flatMap Node.scopedTargets)

/-- The names that some statements declare for the function they stand in. -/
def namesHoisted (statements : List Node) : List String :=
  Node.namesOf unit.text (statements.flatMap (Node.hoistedTargets unit.text))

/-- The names that some statements use and do not bind, if they are all of a function. -/
def freeNames (statements : List Node) : List String :=
  ((statements.flatMap (Node.freeLeaves unit.text)).map unit.textOf).filter fun name =>
    !(unit.namesScoped statements ++ unit.namesHoisted statements).contains name

variable {unit}

theorem exists_of_mem_freeNames {statements : List Node} {name : String}
    (free : name ∈ unit.freeNames statements) :
    ∃ statement ∈ statements, ∃ leaf ∈ statement.descendants,
      leaf.isValueName = true ∧ unit.textOf leaf = name := by
  obtain ⟨leaf, leafMember, named⟩ := List.mem_map.1 (List.mem_filter.1 free).1
  obtain ⟨statement, member, inStatement⟩ := List.mem_flatMap.1 leafMember
  obtain ⟨inside, isName⟩ := Node.isValueName_of_mem_freeLeaves inStatement
  exact ⟨statement, member, leaf, inside, isName, named⟩

end SourceUnit

end CreatorMigration
