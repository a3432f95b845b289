import CreatorMigration.Project.Basic
import CreatorMigration.Proofs.Path.Normal

/-! # Units by their paths

The units of a project stand in the strict order of their paths, so a path names at most one of
them, in whatever spelling.
-/

namespace CreatorMigration

namespace Project

variable (project : Project)

theorem eq_of_path_beq {left right : SourceUnit} (leftMember : left ∈ project.units)
    (rightMember : right ∈ project.units) (same : (left.path == right.path) = true) :
    left = right :=
  Ordered.eq_of_pairwise SourceUnit.order project.ordered leftMember rightMember
    (Path.order_eq_of_beq same)

theorem eq_of_mem_paths {project : Project} {path other : Path} (member : path ∈ project.paths)
    (otherMember : other ∈ project.paths) (same : path.order other = .eq) : path = other :=
  Ordered.eq_of_pairwise Path.order (List.pairwise_map.2 project.ordered) member otherMember same

theorem nodup_paths : project.paths.Nodup := by
  refine List.pairwise_map.2 (project.ordered.imp ?_)
  intro left right below same
  have equal : left.order right = .eq :=
    Path.order_eq_of_beq (Path.beq_iff.2 (congrArg Path.components same))
  rw [equal] at below
  contradiction

theorem unit?_eq_some_iff {path : Path} {unit : SourceUnit} :
    project.unit? path = some unit ↔
      unit ∈ project.units ∧ (unit.path == path.normalize) = true := by
  constructor
  · intro found
    exact ⟨List.mem_of_find?_eq_some found,
      List.find?_some (p := fun unit : SourceUnit => unit.path == path.normalize) found⟩
  · rintro ⟨member, same⟩
    cases found : project.unit? path with
    | none => exact absurd same (List.find?_eq_none.1 found unit member)
    | some other =>
      have otherMember : other ∈ project.units := List.mem_of_find?_eq_some found
      have otherSame : (other.path == path.normalize) = true :=
        List.find?_some (p := fun unit : SourceUnit => unit.path == path.normalize) found
      have paths : (other.path == unit.path) = true :=
        Path.beq_iff.2 ((Path.beq_iff.1 otherSame).trans (Path.beq_iff.1 same).symm)
      rw [project.eq_of_path_beq otherMember member paths]

/-- A unit is found by the normal form of a path as it is by the path. -/
theorem unit?_normalize (path : Path) : project.unit? path.normalize = project.unit? path := by
  rw [unit?, unit?, Path.normalize_normalize]

/-! ## Paths in normal form -/

/-- All paths are in normal form, as those of a project that is made of sources are. -/
def HasNormalPaths (project : Project) : Prop :=
  ∀ path ∈ project.paths, path.normalize.components = path.components

theorem hasNormalPaths_ofSources (root : Path) (layout : ProjectLayout)
    (sources : List (Path × String)) : (ofSources root layout sources).HasNormalPaths := by
  intro path member
  obtain ⟨unit, unitMember, rfl⟩ := List.mem_map.1 member
  obtain ⟨source, _, rfl⟩ := List.mem_map.1
    ((Ordered.mem_sort _ _).1 (Ordered.subset_of_mem_dropRepeats _ _ unitMember))
  change source.1.normalize.normalize.components = source.1.normalize.components
  rw [Path.normalize_normalize]

/-- The path of a unit finds that unit. -/
theorem path_eq_of_unit? {project : Project} (normal : project.HasNormalPaths) {path : Path}
    (member : path ∈ project.paths) {unit : SourceUnit}
    (found : project.unit? path = some unit) : unit.path = path := by
  obtain ⟨unitMember, same⟩ := project.unit?_eq_some_iff.1 found
  have parts := (Path.beq_iff.1 same).trans (normal path member)
  exact eq_of_mem_paths (List.mem_map_of_mem unitMember) member
    (Path.order_eq_of_beq (Path.beq_iff.2 parts))

end Project

end CreatorMigration
