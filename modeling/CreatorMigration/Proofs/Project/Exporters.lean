import CreatorMigration.Project.Reference
import CreatorMigration.Proofs.Project.Frame
import Mathlib.Data.List.Nodup
import Mathlib.Data.List.Perm.Basic

/-! # Which unit a name is imported from

Of the other units that export a name the nearest one is chosen, and none if several are as near.
-/

namespace CreatorMigration.Project

/-! ## The nearest paths -/

theorem le_foldl_max {numbers : List Nat} {start number : Nat} (member : number ∈ numbers) :
    number ≤ numbers.foldl max start := by
  have atLeastStart : ∀ (numbers : List Nat) (start : Nat), start ≤ numbers.foldl max start := by
    intro numbers
    induction numbers with
    | nil => exact fun start => Nat.le_refl start
    | cons first rest inductionHypothesis =>
      exact fun start => Nat.le_trans (Nat.le_max_left start first) (inductionHypothesis _)
  induction numbers generalizing start with
  | nil => simp at member
  | cons first rest inductionHypothesis =>
    rcases List.mem_cons.1 member with rfl | member
    · exact Nat.le_trans (Nat.le_max_right start number) (atLeastStart rest _)
    · exact inductionHypothesis member

theorem foldl_max_mem {numbers : List Nat} (nonempty : numbers ≠ []) :
    numbers.foldl max 0 ∈ numbers := by
  -- the induction needs any start, which the result may be as well
  have reached : ∀ (numbers : List Nat) (start : Nat),
      numbers.foldl max start = start ∨ numbers.foldl max start ∈ numbers := by
    intro numbers
    induction numbers with
    | nil => exact fun start => .inl rfl
    | cons first rest inductionHypothesis =>
      intro start
      rcases inductionHypothesis (max start first) with same | member
      · rw [List.foldl_cons, same]
        rcases Nat.le_total start first with below | above
        · exact .inr (by rw [Nat.max_eq_right below]; exact List.mem_cons_self)
        · exact .inl (Nat.max_eq_left above)
      · exact .inr (List.mem_cons_of_mem _ member)
  cases numbers with
  | nil => exact absurd rfl nonempty
  | cons first rest =>
    rcases reached rest first with same | member
    · rw [List.foldl_cons, Nat.zero_max, same]
      exact List.mem_cons_self
    · rw [List.foldl_cons, Nat.zero_max]
      exact List.mem_cons_of_mem _ member

/-- A path is the only nearest one when all others are farther away. -/
theorem nearestTo_eq_singleton_iff {importer target : Path} {paths : List Path}
    (once : paths.Nodup) :
    nearestTo importer paths = [target] ↔
      target ∈ paths ∧ ∀ other ∈ paths,
        other = target ∨ other.sharedDepth importer < target.sharedDepth importer := by
  have best {other : Path} (member : other ∈ paths) : other.sharedDepth importer ≤
      (paths.map (·.sharedDepth importer)).foldl max 0 :=
    le_foldl_max (List.mem_map.2 ⟨other, member, rfl⟩)
  have mem_nearest {other : Path} : other ∈ nearestTo importer paths ↔ other ∈ paths ∧
      other.sharedDepth importer = (paths.map (·.sharedDepth importer)).foldl max 0 := by
    rw [nearestTo, List.mem_filter, beq_iff_eq]
  constructor
  · intro only
    have nearest {other : Path} : other = target ↔ other ∈ paths ∧
        other.sharedDepth importer = (paths.map (·.sharedDepth importer)).foldl max 0 := by
      rw [← mem_nearest, only, List.mem_singleton]
    obtain ⟨member, depth⟩ := nearest.1 rfl
    refine ⟨member, fun other otherMember => ?_⟩
    by_cases same : other = target
    · exact .inl same
    · refine .inr (Nat.lt_of_le_of_ne (depth ▸ best otherMember) fun equal => ?_)
      exact same (nearest.2 ⟨otherMember, equal.trans depth⟩)
  · rintro ⟨member, farther⟩
    have depth : target.sharedDepth importer =
        (paths.map (·.sharedDepth importer)).foldl max 0 := by
      have nonempty : paths.map (·.sharedDepth importer) ≠ [] :=
        List.ne_nil_of_mem (List.mem_map.2 ⟨target, member, rfl⟩)
      obtain ⟨other, otherMember, otherDepth⟩ := List.mem_map.1 (foldl_max_mem nonempty)
      rcases farther other otherMember with rfl | below
      · exact otherDepth
      · exact absurd (best member) (by omega)
    -- the list has no repeats, so it is enough that it has the same members
    refine List.perm_singleton.1 ((List.perm_ext_iff_of_nodup (once.filter _)
      (List.nodup_singleton target)).2 fun other => ?_)
    change other ∈ nearestTo importer paths ↔ other ∈ [target]
    rw [mem_nearest, List.mem_singleton]
    constructor
    · rintro ⟨otherMember, otherDepth⟩
      rcases farther other otherMember with same | below
      · exact same
      · exact absurd (otherDepth.trans depth.symm) (by omega)
    · rintro rfl
      exact ⟨member, depth⟩

/-! ## The exporter that is chosen -/

/-- Another unit than the importer exports the name, and any third unit that does is farther from
the importer. -/
structure IsNearestExporter (project : Project) (importer : Path) (name : String) (target : Path) :
    Prop where
  exports : target ∈ project.exporters name
  isOther : (target == importer) = false
  farther : ∀ other ∈ project.exporters name, (other == importer) = false →
    other = target ∨ other.sharedDepth importer < target.sharedDepth importer

theorem nodup_exporters (project : Project) (name : String) : (project.exporters name).Nodup :=
  project.nodup_paths.sublist (List.filter_sublist.map SourceUnit.path)

theorem exporter?_eq_some_iff {project : Project} {importer : Path} {name : String}
    {target : Path} :
    project.exporter? importer name = some target ↔
      project.IsNearestExporter importer name target := by
  have mem_others {other : Path} :
      other ∈ (project.exporters name).filter (fun path => !(path == importer)) ↔
        other ∈ project.exporters name ∧ (other == importer) = false := by
    rw [List.mem_filter, Bool.not_eq_true']
  have once : ((project.exporters name).filter fun path => !(path == importer)).Nodup :=
    (project.nodup_exporters name).filter _
  have nearest : project.IsNearestExporter importer name target ↔
      target ∈ (project.exporters name).filter (fun path => !(path == importer)) ∧
        ∀ other ∈ (project.exporters name).filter (fun path => !(path == importer)),
          other = target ∨ other.sharedDepth importer < target.sharedDepth importer := by
    constructor
    · rintro ⟨exports, isOther, farther⟩
      exact ⟨mem_others.2 ⟨exports, isOther⟩, fun other member =>
        farther other (mem_others.1 member).1 (mem_others.1 member).2⟩
    · rintro ⟨member, farther⟩
      exact ⟨(mem_others.1 member).1, (mem_others.1 member).2, fun other exports isOther =>
        farther other (mem_others.2 ⟨exports, isOther⟩)⟩
  rw [nearest, exporter?]
  split
  · next none => simp [none]
  -- a single exporter is chosen however far it is
  · next only single =>
    rw [single]
    simp only [Option.some.injEq, List.mem_singleton, forall_eq]
    exact ⟨fun same => ⟨same.symm, .inl same⟩, fun ⟨same, _⟩ => same.symm⟩
  · rw [← nearestTo_eq_singleton_iff once]
    split
    · next found => simp [found]
    · next several =>
      refine ⟨fun none => by simp at none, fun found => absurd found (several _)⟩

/-- What becomes of the importer itself does not matter. -/
theorem SameBut.exporter?_eq {path : Path} {before after : Project} (same : SameBut path before after)
    (normal : path.normalize.components = path.components) (name : String) :
    after.exporter? path name = before.exporter? path name := by
  have own : (fun exporter : Path => !(exporter == path)) =
      fun exporter => !(exporter == path.normalize) := by
    funext exporter
    exact congrArg not (Bool.eq_iff_iff.2 (by rw [Path.beq_iff, Path.beq_iff, normal]))
  rw [exporter?, exporter?, own, same.exporters_eq name]

theorem SameBut.isNearestExporter_iff {path : Path} {before after : Project}
    (same : SameBut path before after) (normal : path.normalize.components = path.components)
    {name : String} {target : Path} :
    after.IsNearestExporter path name target ↔ before.IsNearestExporter path name target := by
  rw [← exporter?_eq_some_iff, ← exporter?_eq_some_iff, same.exporter?_eq normal]

end CreatorMigration.Project
