import CreatorMigration.Project.Reference
import CreatorMigration.Project.Update
import CreatorMigration.Proofs.Project.Units
import Mathlib.Data.List.Forall2

/-! # Changing one unit

`Project.apply` changes one unit and leaves the others, the root and the layout alone. What is asked
of the paths of a project or of its other units has the same answer before and after.
-/

namespace CreatorMigration

theorem SourceUnit.path_of_apply {unit changed : SourceUnit} {edits : List Edit}
    (applied : unit.apply edits = .ok changed) : changed.path = unit.path := by
  unfold apply at applied
  split at applied
  · cases applied
    rfl
  · cases spliced : Edit.applyAll unit.text edits with
    | error => simp [spliced, Except.map] at applied
    | ok text =>
      simp only [spliced, Except.map, Except.ok.injEq] at applied
      subst applied
      rfl

theorem exists_related_of_mem {α β : Type} {relation : α → β → Prop} {olds : List α} {news : List β}
    (related : List.Forall₂ relation olds news) {old : α} (member : old ∈ olds) :
    ∃ new ∈ news, relation old new := by
  induction related with
  | nil => simp at member
  | cons first _ inductionHypothesis =>
    rcases List.mem_cons.1 member with rfl | member
    · exact ⟨_, List.mem_cons_self, first⟩
    · obtain ⟨new, newMember, others⟩ := inductionHypothesis member
      exact ⟨new, List.mem_cons_of_mem _ newMember, others⟩

theorem forall₂_trans {α : Type} {relation : α → α → Prop} {olds middles news : List α}
    (transitive : ∀ {old middle new}, relation old middle → relation middle new → relation old new)
    (first : List.Forall₂ relation olds middles) (second : List.Forall₂ relation middles news) :
    List.Forall₂ relation olds news := by
  induction first generalizing news with
  | nil =>
    cases second
    exact .nil
  | cons related _ inductionHypothesis =>
    cases second with
    | cons relatedThen rest => exact .cons (transitive related relatedThen) (inductionHypothesis rest)

namespace Project

/-! ## The frame of a path -/

/-- The projects differ at most in the unit at a path. -/
structure SameBut (path : Path) (before after : Project) : Prop where
  root_eq : after.root = before.root
  layout_eq : after.layout = before.layout
  units : List.Forall₂
    (fun old new : SourceUnit =>
      new.path = old.path ∧ ((old.path == path.normalize) = false → new = old))
    before.units after.units

namespace SameBut

variable {path : Path} {before between after : Project}

theorem refl (project : Project) : SameBut path project project :=
  ⟨rfl, rfl, List.forall₂_same.2 fun _ _ => ⟨rfl, fun _ => rfl⟩⟩

theorem trans (first : SameBut path before between) (second : SameBut path between after) :
    SameBut path before after := by
  refine ⟨second.root_eq.trans first.root_eq, second.layout_eq.trans first.layout_eq,
    forall₂_trans ?_ first.units second.units⟩
  rintro old middle new ⟨samePath, kept⟩ ⟨samePathThen, keptThen⟩
  refine ⟨samePathThen.trans samePath, fun other => ?_⟩
  rw [keptThen (by rw [samePath]; exact other), kept other]

theorem paths_eq (same : SameBut path before after) : after.paths = before.paths := by
  have related := same.units
  unfold paths
  generalize before.units = olds at related
  generalize after.units = news at related
  induction related with
  | nil => rfl
  | cons kept _ inductionHypothesis => rw [List.map_cons, List.map_cons, kept.1, inductionHypothesis]

theorem resolve_eq (same : SameBut path before after) (importer : Path) (specifier : String) :
    after.resolve importer specifier = before.resolve importer specifier := by
  rw [resolve, resolve, same.root_eq, same.layout_eq, same.paths_eq]

/-- A unit at another path is the same in both. -/
theorem mem_of_mem (same : SameBut path before after) {unit : SourceUnit}
    (member : unit ∈ before.units) (other : (unit.path == path.normalize) = false) :
    unit ∈ after.units := by
  obtain ⟨new, newMember, _, kept⟩ := exists_related_of_mem same.units member
  rwa [kept other] at newMember

theorem symm (same : SameBut path before after) : SameBut path after before := by
  refine ⟨same.root_eq.symm, same.layout_eq.symm, (same.units.imp ?_).flip⟩
  rintro old new ⟨samePath, kept⟩
  exact ⟨samePath.symm, fun other => (kept (by rwa [← samePath])).symm⟩

/-- What is found at another path is the same in both. -/
theorem unit?_eq (same : SameBut path before after) {other : Path}
    (different : (other.normalize == path.normalize) = false) :
    after.unit? other = before.unit? other := by
  -- the frame is symmetric, so one direction does for both projects
  have carries {old new : Project} (kept : SameBut path old new) {unit : SourceUnit}
      (found : old.unit? other = some unit) : new.unit? other = some unit := by
    obtain ⟨member, own⟩ := old.unit?_eq_some_iff.1 found
    refine new.unit?_eq_some_iff.2 ⟨kept.mem_of_mem member ?_, own⟩
    rw [Path.beq_congr (Path.beq_iff.1 own)]
    exact different
  cases found : before.unit? other with
  | some unit => exact carries same found
  | none =>
    cases foundAfter : after.unit? other with
    | none => rfl
    | some unit => exact absurd (carries same.symm foundAfter) (by simp [found])

/-- The other units that export a name are the same in both. -/
theorem exporters_eq (same : SameBut path before after) (name : String) :
    (after.exporters name).filter (fun exporter => !(exporter == path.normalize)) =
      (before.exporters name).filter fun exporter => !(exporter == path.normalize) := by
  have related := same.units
  unfold exporters
  rw [List.filter_map, List.filter_map, List.filter_filter, List.filter_filter]
  -- only that the units are related one by one is used
  generalize before.units = olds at related
  generalize after.units = news at related
  induction related with
  | nil => rfl
  | @cons old new _ _ kept _ inductionHypothesis =>
    rw [List.filter_cons, List.filter_cons]
    cases own : old.path == path.normalize with
    | false =>
      rw [kept.2 own]
      split
      · rw [List.map_cons, List.map_cons, inductionHypothesis]
      · exact inductionHypothesis
    | true =>
      have newOwn : (new.path == path.normalize) = true := by rw [kept.1, own]
      simpa [own, newOwn] using inductionHypothesis

end SameBut

/-! ## Applying edits -/

theorem exists_of_apply {project result : Project} {path : Path} {edits : List Edit}
    (applied : project.apply path edits = .ok result) :
    ∃ unit changed, project.unit? path = some unit ∧ unit.apply edits = .ok changed ∧
      result = project.replaceUnit changed := by
  unfold apply require at applied
  cases found : project.unit? path with
  | none => simp [found, bind, Except.bind] at applied
  | some unit =>
    cases changes : unit.apply edits with
    | error => simp [found, changes, bind, Except.bind] at applied
    | ok changed =>
      simp only [found, changes, bind, Except.bind, Except.ok.injEq] at applied
      exact ⟨unit, changed, rfl, changes, applied.symm⟩

theorem sameBut_replaceUnit (project : Project) {path : Path} {changed : SourceUnit}
    (own : (changed.path == path.normalize) = true) :
    SameBut path project (project.replaceUnit changed) := by
  refine ⟨rfl, rfl, List.forall₂_map_right_iff.2 (List.forall₂_same.2 fun unit _ => ?_)⟩
  by_cases same : (unit.path == changed.path) = true
  · refine ⟨by simp [same], fun other => ?_⟩
    have equal : (unit.path == path.normalize) = true :=
      Path.beq_iff.2 ((Path.beq_iff.1 same).trans (Path.beq_iff.1 own))
    exact absurd equal (by simp [other])
  · exact ⟨by simp [same], fun _ => by simp [same]⟩

/-- Applying edits changes the unit that they are for and nothing else. -/
theorem sameBut_apply {project result : Project} {path : Path} {edits : List Edit}
    (applied : project.apply path edits = .ok result) : SameBut path project result := by
  obtain ⟨unit, changed, found, changes, rfl⟩ := exists_of_apply applied
  refine sameBut_replaceUnit project ?_
  rw [SourceUnit.path_of_apply changes]
  exact (project.unit?_eq_some_iff.1 found).2

theorem unit?_replaceUnit {project : Project} {path : Path} {unit changed : SourceUnit}
    (found : project.unit? path = some unit) (samePath : changed.path = unit.path) :
    (project.replaceUnit changed).unit? path = some changed := by
  obtain ⟨member, own⟩ := project.unit?_eq_some_iff.1 found
  refine (unit?_eq_some_iff _).2 ⟨?_, by rw [samePath, own]⟩
  refine List.mem_map.2 ⟨unit, member, ?_⟩
  have same : (unit.path == changed.path) = true := Path.beq_iff.2 (by rw [samePath])
  rw [if_pos same, ← samePath]

theorem unit?_of_apply {project result : Project} {path : Path} {edits : List Edit}
    (applied : project.apply path edits = .ok result) :
    ∃ unit changed, project.unit? path = some unit ∧ unit.apply edits = .ok changed ∧
      result.unit? path = some changed := by
  obtain ⟨unit, changed, found, changes, rfl⟩ := exists_of_apply applied
  exact ⟨unit, changed, found, changes, unit?_replaceUnit found (SourceUnit.path_of_apply changes)⟩

end Project

end CreatorMigration
