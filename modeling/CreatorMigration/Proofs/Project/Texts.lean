import CreatorMigration.Project.Files
import CreatorMigration.Proofs.Project.Frame

/-! # The texts of a project

Saving a project writes files and changes no text.
-/

namespace CreatorMigration

namespace Project

/-- The text of the unit at a path. -/
def textAt? (project : Project) (path : Path) : Option String :=
  (project.unit? path).map SourceUnit.text

/-- The projects have the same texts at the same paths. -/
def SameTexts (before after : Project) : Prop :=
  List.Forall₂ (fun old new : SourceUnit => new.path = old.path ∧ new.text = old.text)
    before.units after.units

namespace SameTexts

variable {before between after : Project}

theorem refl (project : Project) : SameTexts project project :=
  List.forall₂_same.2 fun _ _ => ⟨rfl, rfl⟩

theorem trans (first : SameTexts before between) (second : SameTexts between after) :
    SameTexts before after :=
  forall₂_trans (fun kept keptThen => ⟨keptThen.1.trans kept.1, keptThen.2.trans kept.2⟩) first second

theorem textAt?_eq (same : SameTexts before after) (path : Path) :
    after.textAt? path = before.textAt? path := by
  unfold SameTexts at same
  unfold textAt? unit?
  generalize before.units = olds at same
  generalize after.units = news at same
  induction same with
  | nil => rfl
  | cons kept _ inductionHypothesis =>
    rw [List.find?_cons, List.find?_cons, kept.1]
    split
    · rw [Option.map_some, Option.map_some, kept.2]
    · exact inductionHypothesis

end SameTexts

end Project

namespace Workspace

open Project Update

variable {workspace result : Workspace}

/-- The units have the texts that the project has at their paths. -/
def Agree (units : List SourceUnit) (project : Project) : Prop :=
  ∀ unit ∈ units, ∀ other ∈ project.units, (other.path == unit.path) = true →
    other.text = unit.text

theorem agree_units (project : Project) : Agree project.units project :=
  fun _ member _ otherMember same => by rw [project.eq_of_path_beq otherMember member same]

theorem Agree.of_sameTexts {units : List SourceUnit} {before after : Project}
    (agree : Agree units before) (same : SameTexts before after) : Agree units after := by
  intro unit member other otherMember equal
  obtain ⟨old, oldMember, samePath, sameText⟩ := exists_related_of_mem same.flip otherMember
  rw [sameText]
  exact agree unit member old oldMember (by rwa [← samePath])

variable {faults : WriteFaults}

theorem sameTexts_writeUnit {unit : SourceUnit} {answer : Unit}
    (agree : ∀ other ∈ workspace.project.units, (other.path == unit.path) = true →
      other.text = unit.text)
    (ran : writeUnit faults unit workspace = .ok answer result) :
    SameTexts workspace.project result.project := by
  obtain ⟨_, _, got, rest⟩ := bind_eq_ok_iff.1 ran
  obtain ⟨rfl, rfl⟩ := get_eq_ok_iff.1 got
  cases refused : faults unit.path with
  | some reason =>
    rw [refused] at rest
    cases rest
  | none =>
    cases wrote : workspace.disk.write unit.path unit.text with
    | error reason =>
      rw [refused, wrote] at rest
      cases rest
    | ok disk =>
      rw [refused, wrote] at rest
      cases rest
      -- what is written is the text of the unit, which all units of its path agree on
      refine List.forall₂_map_right_iff.2 (List.forall₂_same.2 fun other member => ?_)
      cases same : other.path == unit.path with
      | false => simp [SourceUnit.markSaved, same]
      | true => simpa [SourceUnit.markSaved, same] using (agree other member same).symm

theorem sameTexts_writeUnits {units : List SourceUnit} {written : List Path}
    (agree : Agree units workspace.project)
    (ran : writeUnits faults units workspace = .ok written result) :
    SameTexts workspace.project result.project := by
  induction units generalizing workspace written with
  | nil =>
    obtain ⟨_, rfl⟩ := pure_eq_ok_iff.1 ran
    exact .refl _
  | cons unit rest inductionHypothesis =>
    have agreeRest : Agree rest workspace.project :=
      fun other member => agree other (List.mem_cons_of_mem _ member)
    cases unsaved : unit.isUnsaved with
    | false =>
      simp only [writeUnits, unsaved] at ran
      exact inductionHypothesis agreeRest ran
    | true =>
      simp only [writeUnits, unsaved] at ran
      obtain ⟨_, _, wrote, others⟩ := bind_eq_ok_iff.1 ran
      obtain ⟨_, _, wroteRest, answered⟩ := bind_eq_ok_iff.1 others
      obtain ⟨_, rfl⟩ := pure_eq_ok_iff.1 answered
      -- the first write keeps the texts, so the rest of the list still agrees with the project
      have same := sameTexts_writeUnit (agree unit List.mem_cons_self) wrote
      exact same.trans (inductionHypothesis (agreeRest.of_sameTexts same) wroteRest)

theorem sameTexts_save {written : List Path} (ran : save workspace = .ok written result) :
    SameTexts workspace.project result.project := by
  obtain ⟨_, _, got, rest⟩ := bind_eq_ok_iff.1 ran
  obtain ⟨rfl, rfl⟩ := get_eq_ok_iff.1 got
  exact sameTexts_writeUnits (agree_units _) rest

theorem onProject_eq_ok_iff {α : Type} {change : StateM Project α} {answer : α} :
    onProject change workspace = .ok answer result ↔
      change.run workspace.project = (answer, result.project) ∧ result.disk = workspace.disk := by
  change (EStateM.Result.ok (change workspace.project).1
    { workspace with project := (change workspace.project).2 } = .ok answer result) ↔
      change workspace.project = (answer, result.project) ∧ _
  cases result
  rw [Prod.ext_iff]
  simp [eq_comm, and_assoc]

end Workspace

end CreatorMigration
