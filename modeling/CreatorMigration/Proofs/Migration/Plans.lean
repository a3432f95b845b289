import CreatorMigration.Migration.Action
import Mathlib.Data.List.Forall2

/-! # Plans

`UnitPlan.ofUnit_eq_ok_iff` says what a plan holds: the first enum of the unit with its members, an
entry for each class, and the aggregate alias.
-/

namespace CreatorMigration

/-- What a list is mapped to by an activity that may fail, element by element. -/
theorem mapM_eq_ok_iff {α β ε : Type} {change : α → Except ε β} {inputs : List α}
    {outputs : List β} :
    inputs.mapM change = .ok outputs ↔
      List.Forall₂ (fun input output => change input = .ok output) inputs outputs := by
  induction inputs generalizing outputs with
  | nil => simp [pure, Except.pure, eq_comm]
  | cons first rest inductionHypothesis =>
    rw [List.mapM_cons, List.forall₂_cons_left_iff]
    simp only [← inductionHypothesis]
    cases change first with
    | error => simp [bind, Except.bind]
    | ok value =>
      cases rest.mapM change with
      | error => simp [bind, Except.bind]
      | ok values => simp [bind, Except.bind, pure, Except.pure, eq_comm]

/-- It fails where one of the elements does. -/
theorem exists_of_mapM_eq_error {α β ε : Type} {change : α → Except ε β} {inputs : List α}
    {error : ε} (failed : inputs.mapM change = .error error) :
    ∃ input ∈ inputs, change input = .error error := by
  induction inputs with
  | nil => cases failed
  | cons first rest inductionHypothesis =>
    rw [List.mapM_cons] at failed
    cases changed : change first with
    | error =>
      simp only [changed, bind, Except.bind, Except.error.injEq] at failed
      exact ⟨first, List.mem_cons_self, failed ▸ changed⟩
    | ok value =>
      cases others : rest.mapM change with
      | error =>
        simp only [changed, others, bind, Except.bind, Except.error.injEq] at failed
        obtain ⟨input, member, same⟩ := inductionHypothesis (failed ▸ others)
        exact ⟨input, List.mem_cons_of_mem _ member, same⟩
      | ok values => simp [changed, others, bind, Except.bind, pure, Except.pure] at failed

theorem FactoryPlan.ofDeclaration_eq_ok_iff {config : Config} {unit : SourceUnit}
    {types : ActionTypes} {declaration : Declaration} {entry : FactoryPlan} :
    ofDeclaration config unit types declaration = .ok entry ↔
      ∃ read member literal, unit.actionClass? config.naming declaration = some read ∧
        discriminate config.naming types read = .ok (member, literal) ∧
        entry = ofClass config.creators declaration read member literal := by
  unfold ofDeclaration
  cases unit.actionClass? config.naming declaration with
  | none => simp
  | some read =>
    cases told : discriminate config.naming types read with
    | error => simp [told, bind, Except.bind]
    | ok parts =>
      obtain ⟨member, literal⟩ := parts
      simp [told, bind, Except.bind, pure, Except.pure, eq_comm]

theorem UnitPlan.ofUnit_eq_ok_iff {config : Config} {pattern : Pattern} {unit : SourceUnit}
    {plan : UnitPlan} :
    ofUnit config pattern unit = .ok plan ↔
      unit.declarationsOfKind .classLike ≠ [] ∧
      ∃ first rest, unit.declarationsOfKind .enum = first :: rest ∧
        unit.nameOf? first = some plan.enum ∧ plan.types = unit.actionTypes first.node ∧
        List.Forall₂ (fun declaration entry =>
            FactoryPlan.ofDeclaration config unit plan.types declaration = .ok entry)
          (unit.declarationsOfKind .classLike) plan.classes ∧
        plan.aggregate = AliasPlan.ofUnit pattern unit := by
  unfold ofUnit
  cases enums : unit.declarationsOfKind .enum with
  | nil => cases classes : unit.declarationsOfKind .classLike <;> simp
  | cons first others =>
    cases classes : unit.declarationsOfKind .classLike with
    | nil => simp
    | cons firstClass otherClasses =>
      cases named : unit.nameOf? first with
      | none => simp [named]
      | some enum =>
        simp only [named, ← mapM_eq_ok_iff]
        -- whether the classes make plans is all that is left to ask
        cases mapped : (firstClass :: otherClasses).mapM
            (FactoryPlan.ofDeclaration config unit (unit.actionTypes first.node)) with
        | error =>
          simp only [bind, Except.bind, reduceCtorEq, false_iff]
          rintro ⟨_, first, rest, enums, _, types, classes, _⟩
          cases enums
          simp [types, mapped] at classes
        | ok plans =>
          simp only [bind, Except.bind, pure, Except.pure, Except.ok.injEq]
          constructor
          · rintro rfl
            exact ⟨List.cons_ne_nil _ _, first, others, rfl, named, rfl, mapped, rfl⟩
          · rintro ⟨_, first, rest, enums, enum, types, classes, aggregate⟩
            cases enums
            rw [types, mapped, Except.ok.injEq] at classes
            cases plan
            simp_all

end CreatorMigration
