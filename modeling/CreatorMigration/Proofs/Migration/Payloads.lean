import CreatorMigration.Proofs.Migration.Gate
import CreatorMigration.Proofs.Migration.Stages
import CreatorMigration.Proofs.Migration.WrittenSites

/-! # Payloads

The constructor of a class of actions takes parameters, and a factory has fields in their place. The
declaration of the factory and its calls are written by two functions, which share one field only.

* `FactoryPlan.declarationWith` and `Factory.callWith` write a declaration and a call with any
  number of fields.
* `carriesPayload_of_migrated` says which fields the migration writes: the one for the first
  parameter.
-/

namespace CreatorMigration

open Project Update

/-! ## Constructors -/

namespace SourceUnit

variable (unit : SourceUnit)

def isConstructor (member : Node) : Bool :=
  member.kind == .methodDefinition && unit.isMemberNamed "constructor" member

def isStatic (member : Node) : Bool :=
  member.children.any fun child => child.kind == .token && unit.textOf child == "static"

/-- The members of a class that are called `constructor` and have a body. -/
def constructors (declaration : Declaration) : List Node :=
  (((declaration.node.child? .body).map Node.namedParts).getD []).filter unit.isConstructor

/-- A parameter that is a name, with a type or without, and has no value of its own. -/
def isPlainParameter (node : Node) : Bool :=
  ((node.child? .pattern).any fun pattern => pattern.kind == .identifier) &&
    !node.hasChild .value

/-- The parameters that the class is constructed with: those of its only constructor, if it has one.
Each of them has to be plain. -/
inductive Takes (declaration : Declaration) : List ConstructorParameter → Prop where
  | without (none : unit.constructors declaration = []) : Takes declaration []
  | sole {constructor list : Node} (only : unit.constructors declaration = [constructor])
      (ofInstances : unit.isStatic constructor = false)
      (listed : constructor.child? .parameters = some list)
      (plain : ∀ node ∈ parameterNodes list, isPlainParameter node = true) :
      Takes declaration ((parameterNodes list).filterMap unit.constructorParameter?)

variable {unit}

theorem parameters_readMember {naming : Naming} {read : ActionClass} {member : Node}
    (other : unit.isConstructor member = false) :
    (unit.readMember naming read member).parameters = read.parameters := by
  unfold readMember
  split
  · split <;> rfl
  · next isMethod =>
    have otherName : unit.isMemberNamed "constructor" member = false := by
      simpa [isConstructor, isMethod] using other
    simp [otherName]
  · rfl

theorem parameters_foldl_readMember {naming : Naming} {read : ActionClass} {members : List Node}
    (none : ∀ member ∈ members, unit.isConstructor member = false) :
    (members.foldl (unit.readMember naming) read).parameters = read.parameters := by
  induction members generalizing read with
  | nil => rfl
  | cons first rest inductionHypothesis =>
    obtain ⟨firstOther, restOther⟩ := List.forall_mem_cons.1 none
    rw [List.foldl_cons, inductionHypothesis restOther, parameters_readMember firstOther]

theorem parameters_readMember_constructor {naming : Naming} {read : ActionClass}
    {member list : Node} (isConstructor : unit.isConstructor member = true)
    (listed : member.child? .parameters = some list) :
    (unit.readMember naming read member).parameters =
      (parameterNodes list).filterMap unit.constructorParameter? := by
  obtain ⟨isMethod, named⟩ := Bool.and_eq_true_iff.1 isConstructor
  simp only [readMember, eq_of_beq isMethod, named, listed]

/-- The reading of a class lists the parameters that the class takes. -/
theorem Takes.parameters_eq {naming : Naming} {declaration : Declaration}
    {parameters : List ConstructorParameter} {read : ActionClass}
    (takes : unit.Takes declaration parameters)
    (isRead : unit.actionClass? naming declaration = some read) : read.parameters = parameters := by
  unfold actionClass? at isRead
  split at isRead
  · next name body _ found =>
    cases isRead
    have members : unit.constructors declaration = body.namedParts.filter unit.isConstructor := by
      rw [constructors, found, Option.map_some, Option.getD_some]
    cases takes with
    | without none =>
      rw [members, List.filter_eq_nil_iff] at none
      exact parameters_foldl_readMember fun member memberOf => by simpa using none member memberOf
    | sole only _ listed _ =>
      rw [members, List.filter_eq_cons_iff] at only
      obtain ⟨front, back, split, frontOther, isConstructor, backOther⟩ := only
      -- members behind the constructor do not read parameters again
      rw [split, List.foldl_append, List.foldl_cons, parameters_foldl_readMember,
        parameters_readMember_constructor isConstructor listed]
      exact fun member memberOf => by
        simpa using List.filter_eq_nil_iff.1 backOther member memberOf
  · cases isRead

end SourceUnit

/-! ## Texts with any number of fields -/

namespace FactoryPlan

def fieldText (parameter : ConstructorParameter) : String :=
  parameter.name ++ (if parameter.isOptional then "?: " else ": ") ++
    parameter.type.getD "unknown"

/-- The declaration of a factory whose payload has a field for each of the parameters. -/
def declarationWith (creators : CreatorNames) (exported : Bool) (name literal : String)
    (fields : List ConstructorParameter) : String :=
  let payload :=
    if fields.isEmpty then ""
    else ", " ++ creators.props ++ "<\x7b " ++ Text.join ", " (fields.map fieldText) ++ " \x7d>()"
  (if exported then "export " else "") ++ "const " ++ name ++ " = " ++ creators.createAction ++
    "(" ++ literal ++ payload ++ ");"

/-- Only the first parameter has a field in the declaration of a factory. -/
theorem factoryDeclaration_eq (creators : CreatorNames) (exported : Bool) (name literal : String)
    (parameters : List ConstructorParameter) :
    factoryDeclaration creators exported name literal parameters.head? =
      declarationWith creators exported name literal (parameters.take 1) := by
  cases parameters with
  | nil => simp [factoryDeclaration, declarationWith]
  | cons first rest =>
    simp [factoryDeclaration, declarationWith, propsArgument, fieldText, Text.join,
      String.append_assoc]

end FactoryPlan

namespace Factory

/-- A call of a factory with an argument for each of the fields. -/
def callWith (name : String) (fields : List (String × String)) : String :=
  if fields.isEmpty then name ++ "()"
  else
    name ++ "(\x7b " ++ Text.join ", " (fields.map fun (field, argument) =>
      field ++ ": " ++ argument) ++ " \x7d)"

/-- Only the first argument is carried by the call of a factory. -/
theorem call_eq (name : String) {fields arguments : List String}
    (enough : arguments.length ≤ fields.length) :
    call ⟨name, fields.head?⟩ arguments.head? =
      callWith name ((fields.take 1).zip arguments) := by
  cases arguments with
  | nil => simp [call, callWith]
  | cons first rest =>
    cases fields with
    | nil => simp at enough
    | cons field others => simp [call, callWith, Text.join, String.append_assoc]

end Factory

/-! ## The payload of a class -/

/-- The class of a name that a unit declares, wherever it is used outside. -/
def classTarget (path : Path) (name : String) : ReplacementTarget := ⟨path, name, fun _ => false⟩

/-- A round writes each construction that is left for it and passes arguments for some of the
parameters as a call that carries them by the names of the fields. -/
def CarriesArguments (target : ReplacementTarget) (factory : Factory)
    (parameters fields : List ConstructorParameter) (before after : Project) : Prop :=
  ∀ {unit : SourceUnit} {use : Reference} {expression : Node},
    target.IsSiteLeft factory before unit use (.construction expression) →
      expression.callArguments.length ≤ parameters.length →
      (∀ argument ∈ expression.callArguments, argument.kind ≠ .spreadElement) →
      ∃ changed, after.unit? unit.path = some changed ∧
        WritesEdit (Edit.outermost (target.editsLeft (classRule factory) before unit)) unit.text
          changed.text
          ⟨expression.span, Factory.callWith (Text.decapitalize target.name)
            ((fields.map ConstructorParameter.name).zip
              (expression.callArguments.map unit.textOf))⟩

/-- A migrated class that takes `parameters` has a factory with a field for each of `fields`. -/
structure CarriesPayload (config : Config) (path : Path) (plan : UnitPlan) (declared : Project)
    (declaration : Declaration) (name literal : String)
    (parameters fields : List ConstructorParameter) : Prop where
  /-- The declaration of the factory types each field as the constructor typed the parameter. -/
  declares : (⟨declaration.statement.node.span,
    FactoryPlan.declarationWith config.creators declaration.exported (Text.decapitalize name)
      literal fields⟩ : Edit) ∈ plan.classEdits
  /-- When the uses of the class have their turn to be handed over, each round writes calls with
  these fields, and only imports are changed behind the rounds. -/
  handsOver : ∃ done rest factory left outcome rewritten next,
    plan.handOvers config path = done ++ (classTarget path name, classRule factory) :: rest ∧
      runEach (handOver config.library) done declared = .ok () left ∧
      EachRound (classTarget path name) (classRule factory)
        (CarriesArguments (classTarget path name) factory parameters fields) left rewritten ∧
      alignAll config.library outcome.units rewritten = .ok () next ∧
      replaceReferences (classTarget path name) config.library (classRule factory) left =
        .ok outcome next

theorem WritesSites.carriesArguments {target : ReplacementTarget}
    {parameters : List ConstructorParameter} {before after : Project}
    (writes : WritesSites target ⟨Text.decapitalize target.name,
      parameters.head?.map ConstructorParameter.name⟩ before after) :
    CarriesArguments target ⟨Text.decapitalize target.name,
      parameters.head?.map ConstructorParameter.name⟩ parameters (parameters.take 1) before
      after := by
  intro unit use expression isLeft enough _
  have enough : (expression.callArguments.map unit.textOf).length ≤
      (parameters.map ConstructorParameter.name).length := by
    simpa using enough
  have written := Factory.call_eq (Text.decapitalize target.name) enough
  rw [List.head?_map, List.head?_map, ← List.map_take] at written
  rw [← written]
  exact writes isLeft

/-- The factory of a class carries what is passed for the first parameter. -/
theorem UnitPlan.Stages.carriesPayload {config : Config} {pattern : Pattern} {path : Path}
    {plan : UnitPlan} {project declared handed removed result : Project} {unit : SourceUnit}
    (stages : plan.Stages config path project declared handed removed result)
    (normal : project.HasNormalPaths) (planned : UnitPlan.ofUnit config pattern unit = .ok plan)
    {declaration : Declaration} (member : declaration ∈ unit.declarationsOfKind .classLike) :
    ∃ read member literal, unit.actionClass? config.naming declaration = some read ∧
      FactoryPlan.discriminate config.naming plan.types read = .ok (member, literal) ∧
      CarriesPayload config path plan declared declaration read.name literal read.parameters
        (read.parameters.take 1) := by
  obtain ⟨_, _, _, _, _, _, classes, _⟩ := ofUnit_eq_ok_iff.1 planned
  obtain ⟨entry, entryMember, made⟩ := exists_related_of_mem classes member
  obtain ⟨read, label, literal, isRead, told, rfl⟩ := FactoryPlan.ofDeclaration_eq_ok_iff.1 made
  refine ⟨read, label, literal, isRead, told, ?_, ?_⟩
  · rw [← FactoryPlan.factoryDeclaration_eq]
    exact List.mem_map_of_mem entryMember
  · have listed : (classTarget path read.name,
        classRule (FactoryPlan.ofClass config.creators declaration read label literal).factory) ∈
          plan.handOvers config path :=
      List.mem_append_left _ (List.mem_map_of_mem entryMember)
    -- the class has one turn among the hand-overs, in what those in front of it have left
    obtain ⟨done, rest, left, outcome, next, split, ranDone, ran, _⟩ :=
      exists_turn_of_mem stages.handsOver listed
    have same := (sameBut_apply (apply_eq_ok_iff.1 stages.declares)).samePaths.trans
      (samePaths_runEach_handOver ranDone)
    obtain ⟨rounds, rewritten, replaces⟩ := exists_replacesSites ran
    have each := replaces.batches.eachRound (same.hasNormalPaths normal)
    exact ⟨done, rest, _, left, outcome, rewritten, next, split, ranDone,
      each.mono fun writes => writes.carriesArguments, replaces.aligned, ran⟩

/-- In a migrated unit the factory of a class has a field for the first parameter that the class is
constructed with, and the constructions carry their first arguments in it. That is the whole payload
of a class with one parameter at most; the checks before a run let no other class pass where they
inspect the unit, and the migration does not ask. -/
theorem carriesPayload_of_migrated {config : Config} {pattern : Pattern} {path : Path}
    {project result : Project} {answer : FactoryCatalog × ActionChanges}
    (normal : project.HasNormalPaths)
    (ran : migrateActions config pattern path project = .ok (.migrated answer) result) :
    ∃ unit plan declared, project.unit? path = some unit ∧
      UnitPlan.ofUnit config pattern unit = .ok plan ∧ plan.ReplacesClasses path project unit ∧
      Update.apply path plan.classEdits project = .ok () declared ∧
      ∀ declaration ∈ unit.declarationsOfKind .classLike, ∃ read member literal,
        unit.actionClass? config.naming declaration = some read ∧
        FactoryPlan.discriminate config.naming plan.types read = .ok (member, literal) ∧
        ∀ parameters, unit.Takes declaration parameters →
          CarriesPayload config path plan declared declaration read.name literal parameters
            (parameters.take 1) ∧
          (parameters.length ≤ 1 → CarriesPayload config path plan declared declaration read.name
            literal parameters parameters) ∧
          ((Preflight.inspect config project).passed = true →
            Preflight.inspectsClasses config unit = true → parameters.length ≤ 1) := by
  obtain ⟨unit, plan, found, planned, declared, _, _, stages⟩ := exists_stages ran
  refine ⟨unit, plan, declared, found, planned, UnitPlan.replacesClasses found planned,
    stages.declares, fun declaration classMember => ?_⟩
  obtain ⟨read, member, literal, isRead, told, carries⟩ :=
    stages.carriesPayload normal planned classMember
  refine ⟨read, member, literal, isRead, told, fun parameters takes => ?_⟩
  obtain rfl := takes.parameters_eq isRead
  refine ⟨carries, fun few => ?_, fun passed inspects => ?_⟩
  · rwa [List.take_of_length_le few] at carries
  · have member := (project.unit?_eq_some_iff.1 found).1
    exact Preflight.length_parameters_of_passed passed member inspects classMember isRead

/-- A class with two parameters, and a construction with two arguments. -/
def twoParameters : Project :=
  ofSources ⟨""⟩ {}
    [(⟨"a.ts"⟩, "enum T\x7bL='l'\x7dexport class C\x7btype=T.L;constructor(a,b)\x7b\x7d\x7d"),
      (⟨"u.ts"⟩, "import\x7bC\x7dfrom'./a';new C(1,2)")]

theorem migrated_twoParameters :
    ∃ answer result,
      migrateActions noLibrary .empty ⟨"a.ts"⟩ twoParameters = .ok (.migrated answer) result ∧
      (result.unit? ⟨"u.ts"⟩).map SourceUnit.text =
        some "import\x7b c \x7dfrom'./a';c(\x7b a: 1 \x7d)" := by
  have succeeds : succeedsWith
      (fun outcome result => match outcome with
        | .migrated _ => decide ((result.unit? ⟨"u.ts"⟩).map SourceUnit.text =
            some "import\x7b c \x7dfrom'./a';c(\x7b a: 1 \x7d)")
        | .skipped _ => false)
      (migrateActions noLibrary .empty ⟨"a.ts"⟩ twoParameters) = true := by
    decide +kernel
  obtain ⟨outcome, result, ran, texts⟩ := exists_of_succeedsWith succeeds
  cases outcome with
  | skipped => cases texts
  | migrated answer => exact ⟨answer, result, ran, of_decide_eq_true texts⟩

theorem carriesPayload_of_migrated_twoParameters :
    ∃ answer result unit plan declared,
      twoParameters.HasNormalPaths ∧
      migrateActions noLibrary .empty ⟨"a.ts"⟩ twoParameters = .ok (.migrated answer) result ∧
      twoParameters.unit? ⟨"a.ts"⟩ = some unit ∧ UnitPlan.ofUnit noLibrary .empty unit = .ok plan ∧
      ∀ declaration ∈ unit.declarationsOfKind .classLike, ∃ read member literal,
        unit.actionClass? noLibrary.naming declaration = some read ∧
        FactoryPlan.discriminate noLibrary.naming plan.types read = .ok (member, literal) ∧
        ∀ parameters, unit.Takes declaration parameters →
          CarriesPayload noLibrary ⟨"a.ts"⟩ plan declared declaration read.name literal parameters
            (parameters.take 1) := by
  obtain ⟨answer, result, ran, _⟩ := migrated_twoParameters
  have normal : twoParameters.HasNormalPaths := hasNormalPaths_ofSources _ _ _
  obtain ⟨unit, plan, declared, found, planned, _, _, classes⟩ :=
    carriesPayload_of_migrated normal ran
  refine ⟨answer, result, unit, plan, declared, normal, ran, found, planned,
    fun declaration member => ?_⟩
  obtain ⟨read, label, literal, isRead, told, carries⟩ := classes declaration member
  exact ⟨read, label, literal, isRead, told, fun parameters takes => (carries parameters takes).1⟩

/-- The unit is migrated, and the second parameter is lost with its argument. -/
theorem not_carriesPayload_twoParameters :
    ∃ answer result unit plan declaration read,
      migrateActions noLibrary .empty ⟨"a.ts"⟩ twoParameters = .ok (.migrated answer) result ∧
      (result.unit? ⟨"u.ts"⟩).map SourceUnit.text =
        some "import\x7b c \x7dfrom'./a';c(\x7b a: 1 \x7d)" ∧
      twoParameters.unit? ⟨"a.ts"⟩ = some unit ∧ UnitPlan.ofUnit noLibrary .empty unit = .ok plan ∧
      declaration ∈ unit.declarationsOfKind .classLike ∧
      unit.actionClass? noLibrary.naming declaration = some read ∧
      unit.Takes declaration read.parameters ∧
      read.parameters.map ConstructorParameter.name = ["a", "b"] ∧
      ∀ declared, ¬ CarriesPayload noLibrary ⟨"a.ts"⟩ plan declared declaration read.name "'l'"
        read.parameters read.parameters := by
  have reads : ∀ unit ∈ twoParameters.unit? ⟨"a.ts"⟩,
      ∃ declaration ∈ unit.declarationsOfKind .classLike,
        ∃ read ∈ unit.actionClass? noLibrary.naming declaration,
          read.parameters.map ConstructorParameter.name = ["a", "b"] ∧
          (unit.constructors declaration).length = 1 ∧
          (∃ constructor ∈ unit.constructors declaration, unit.isStatic constructor = false ∧
            ∃ list ∈ constructor.child? .parameters,
              ∀ node ∈ SourceUnit.parameterNodes list,
                SourceUnit.isPlainParameter node = true) ∧
          ∀ plan ∈ (UnitPlan.ofUnit noLibrary .empty unit).toOption,
            FactoryPlan.declarationWith noLibrary.creators declaration.exported
              (Text.decapitalize read.name) "'l'" read.parameters ∉
                plan.classEdits.map Edit.replacement := by
    decide +kernel
  obtain ⟨answer, result, ran, texts⟩ := migrated_twoParameters
  obtain ⟨unit, plan, found, planned, _⟩ := exists_stages ran
  obtain ⟨declaration, member, read, isRead, names, one,
    ⟨constructor, constructorMember, ofInstances, list, listed, plain⟩, unlike⟩ := reads unit found
  have only : unit.constructors declaration = [constructor] := by
    obtain ⟨other, sole⟩ := List.length_eq_one_iff.1 one
    rw [sole, List.mem_singleton] at constructorMember
    rw [sole, constructorMember]
  have takes := SourceUnit.Takes.sole only ofInstances listed plain
  refine ⟨answer, result, unit, plan, declaration, read, ran, texts, found, planned, member, isRead,
    takes.parameters_eq isRead ▸ takes, names, fun declared carries => ?_⟩
  exact unlike plan (by rw [planned]; rfl) (List.mem_map_of_mem carries.declares)

end CreatorMigration
