import CreatorMigration.Migration.Pipeline
import CreatorMigration.Migration.Action
import CreatorMigration.Proofs.Migration.Plans
import CreatorMigration.Proofs.Migration.Registration
import Mathlib.Data.List.Basic

/-! # The names of a factory

A factory is named after its class where it is declared, and after a member of the enum where a
reducer registers it or a pipeline filters by it. `namesAgree_iff` says when these are one name.
-/

namespace CreatorMigration

/-! ## What a unit of actions declares -/

/-- Each class is replaced by the declaration of a factory that is named after it. -/
theorem UnitPlan.declares_of_ofUnit {config : Config} {pattern : Pattern} {unit : SourceUnit}
    {plan : UnitPlan} (read : UnitPlan.ofUnit config pattern unit = .ok plan) {entry : FactoryPlan}
    (member : entry ∈ plan.classes) :
    entry.factory.name = Text.decapitalize entry.name ∧
      ∃ exported literal payload, entry.replacement =
        FactoryPlan.factoryDeclaration config.creators exported entry.factory.name literal
          payload := by
  obtain ⟨_, _, _, _, _, _, classes, _⟩ := UnitPlan.ofUnit_eq_ok_iff.1 read
  obtain ⟨declaration, _, planned⟩ := exists_related_of_mem (List.Forall₂.flip classes) member
  obtain ⟨action, _, literal, _, _, rfl⟩ := FactoryPlan.ofDeclaration_eq_ok_iff.1 planned
  exact ⟨rfl, declaration.exported, literal, action.parameters.head?, rfl⟩

/-! ## What the catalogue knows -/

/-- The last class that is told apart by a member of the enum. -/
def UnitPlan.lastOf? (plan : UnitPlan) (member : String) : Option FactoryPlan :=
  (plan.classes.filter fun entry => entry.member == some member).getLast?

theorem UnitPlan.filter_entries (member : String) (classes : List FactoryPlan) :
    ((classes.filterMap fun entry => entry.member.map fun other => (other, entry.factory.name)).filter
        fun pair => member == pair.1) =
      (classes.filter fun entry => entry.member == some member).map fun entry =>
        (member, entry.factory.name) := by
  induction classes with
  | nil => rfl
  | cons first rest inductionHypothesis =>
    cases told : first.member with
    | none => simp [told, inductionHypothesis]
    | some other =>
      by_cases same : member = other
      · subst same
        simp [told, inductionHypothesis]
      · simp [told, inductionHypothesis, same, Ne.symm same]

/-- The catalogue answers with the factory of the last class, or with the name of the member. -/
theorem factoryOf_ofPlan (plan : UnitPlan) (member : String) :
    (FactoryCatalog.ofPlan plan).factoryOf member =
      ((plan.lastOf? member).map fun last => last.factory.name).getD (Text.decapitalize member) := by
  rw [FactoryCatalog.factoryOf, FactoryCatalog.ofPlan, Table.find?_ofEntries,
    UnitPlan.filter_entries, List.getLast?_map, Option.map_map]
  rfl

theorem UnitPlan.exists_lastOf? {plan : UnitPlan} {entry : FactoryPlan} {member : String}
    (entryMember : entry ∈ plan.classes) (told : entry.member = some member) :
    ∃ last ∈ plan.classes, plan.lastOf? member = some last := by
  have listed : entry ∈ plan.classes.filter fun entry => entry.member == some member :=
    List.mem_filter.2 ⟨entryMember, by simp [told]⟩
  cases found : plan.lastOf? member with
  | none => exact absurd (List.getLast?_eq_none_iff.1 found) (List.ne_nil_of_mem listed)
  | some last => exact ⟨last, (List.mem_filter.1 (List.mem_of_getLast? found)).1, rfl⟩

/-! ## When the names agree -/

/-- The catalogue, the reducer and the filter of a pipeline all name the factory of a class for a
label that stands for its member of the enum. -/
structure NamesAgree (config : Config) (plan : UnitPlan) (entry : FactoryPlan) (label : String) :
    Prop where
  catalogued : (FactoryCatalog.ofPlan plan).factoryOf (unqualified label) = entry.factory.name
  registered : factoryName label = entry.factory.name
  filtered : Pass.filterArgument config label = entry.factory.name

theorem filterArgument_of_not_marker {config : Config} {label : String}
    (ordinary : config.isBootstrapMarker (unqualified label) = false) :
    Pass.filterArgument config label = factoryName label := by
  rw [Pass.filterArgument, Pass.isMarker, ordinary]
  rfl

theorem namesAgree_iff {config : Config} {pattern : Pattern} {unit : SourceUnit} {plan : UnitPlan}
    (read : UnitPlan.ofUnit config pattern unit = .ok plan) {entry : FactoryPlan}
    (member : entry ∈ plan.classes) {label : String}
    (told : entry.member = some (unqualified label)) :
    NamesAgree config plan entry label ↔
      Text.decapitalize (unqualified label) = Text.decapitalize entry.name ∧
        (∀ last ∈ plan.lastOf? (unqualified label),
          Text.decapitalize last.name = Text.decapitalize entry.name) ∧
        (config.isBootstrapMarker (unqualified label) = true →
          label = Text.decapitalize entry.name) := by
  obtain ⟨last, lastMember, lastFound⟩ := UnitPlan.exists_lastOf? member told
  have entryNamed := (UnitPlan.declares_of_ofUnit read member).1
  have lastNamed := (UnitPlan.declares_of_ofUnit read lastMember).1
  have catalogued : (FactoryCatalog.ofPlan plan).factoryOf (unqualified label) =
      Text.decapitalize last.name := by
    rw [factoryOf_ofPlan, lastFound, ← lastNamed]
    rfl
  rw [lastFound]
  -- the three names are those of the last class, of the label, and of the label unless it is a marker
  constructor
  · rintro ⟨catalogue, registered, filtered⟩
    rw [entryNamed] at catalogue registered filtered
    refine ⟨registered, ?_, ?_⟩
    · rintro _ ⟨⟩
      exact catalogued.symm.trans catalogue
    · intro marker
      rwa [Pass.filterArgument, Pass.isMarker, marker] at filtered
  · rintro ⟨named, lastSame, marked⟩
    refine ⟨?_, named.trans entryNamed.symm, ?_⟩
    · rw [catalogued, entryNamed, lastSame last rfl]
    · rw [entryNamed]
      cases marker : config.isBootstrapMarker (unqualified label) with
      | false => exact (filterArgument_of_not_marker marker).trans named
      | true =>
        rw [Pass.filterArgument, Pass.isMarker, marker]
        exact marked marker

/-- An access to a member of the enum becomes the type of the catalogued factory. -/
theorem enumRule_eq_some {catalog : FactoryCatalog} {unit : SourceUnit} {place : Place} {edit : Edit}
    (ruled : enumRule catalog unit place = some edit) :
    ∃ access property, place.parent? = some access ∧ access.child? .property = some property ∧
      edit = ⟨access.span, catalog.factoryOf (unit.textOf property) ++ ".type"⟩ := by
  unfold enumRule at ruled
  cases around : place.parent? with
  | none => simp [around] at ruled
  | some access =>
    simp only [around] at ruled
    split at ruled
    · obtain ⟨property, found, rfl⟩ := Option.map_eq_some_iff.1 ruled
      exact ⟨access, property, rfl, found, rfl⟩
    · cases ruled

/-- A unit whose class is not named after the member that it is told apart by. -/
def loadAll : SourceUnit :=
  SourceUnit.ofText ⟨"a.actions.ts"⟩
    "enum A \x7b Load = 'l' \x7d class LoadAll \x7b type = A.Load \x7d"

/-- The plans of the unit under the default configuration. -/
def loadAllPlans : List UnitPlan :=
  ({} : Config).aliasPattern?.toList.filterMap fun pattern =>
    (UnitPlan.ofUnit {} pattern loadAll).toOption

theorem exists_loadAll_plan :
    ∃ pattern plan, ∃ entry ∈ plan.classes, UnitPlan.ofUnit {} pattern loadAll = .ok plan ∧
      entry.member = some (unqualified "A.Load") ∧ factoryName "A.Load" ≠ entry.factory.name := by
  have planned : ∃ plan ∈ loadAllPlans, ∃ entry ∈ plan.classes,
      entry.member = some (unqualified "A.Load") ∧ factoryName "A.Load" ≠ entry.factory.name := by
    decide +kernel
  obtain ⟨plan, planMember, entry, member, told, different⟩ := planned
  obtain ⟨pattern, _, read⟩ := List.mem_filterMap.1 planMember
  refine ⟨pattern, plan, entry, member, ?_, told, different⟩
  cases planned : UnitPlan.ofUnit {} pattern loadAll with
  | error => simp [planned, Except.toOption] at read
  | ok other =>
    simp only [planned, Except.toOption, Option.some.injEq] at read
    rw [read]

end CreatorMigration
