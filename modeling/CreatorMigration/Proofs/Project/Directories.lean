import CreatorMigration.Proofs.Path.Order
import CreatorMigration.Proofs.Project.Units

/-! # Directories without others below them

`Project.leafDirectories` compares each directory with the next one only.
`Project.leafDirectories_exact` says that this finds the directories of which no other one lies
below, as a comparison with all of them does.
-/

namespace CreatorMigration

namespace Project

open CreatorMigration.Path

variable {project : Project} {directory : Path}

/-! ## Directories with units -/

/-- The directories of a project are told apart by the order, as all of them are cut off a path. -/
theorem mem_directories :
    directory ∈ project.directories ↔ ∃ path ∈ project.paths, path.parent? = some directory := by
  rw [directories, sortedSet, Ordered.mem_ofList_of_told order, List.mem_filterMap]
  intro left leftMember right rightMember same
  obtain ⟨_, _, leftParent⟩ := List.mem_filterMap.1 leftMember
  obtain ⟨_, _, rightParent⟩ := List.mem_filterMap.1 rightMember
  rw [← (components_parent? leftParent).2, ← (components_parent? rightParent).2,
    components_eq_of_order_eq same]

theorem pairwise_directories (project : Project) :
    project.directories.Pairwise fun left right => left.order right = .lt :=
  Ordered.pairwise_ofList order _

/-! ## Comparing with all of them -/

/-- Whether none of some directories lies below another one. -/
def hasNoneBelow (directories : List Path) (directory : Path) : Bool :=
  directories.all fun other => !decide (other.IsBelow directory)

theorem hasNoneBelow_iff {directories : List Path} :
    hasNoneBelow directories directory = true ↔
      ∀ other ∈ directories, ¬ other.IsBelow directory := by
  simp [hasNoneBelow]

theorem not_isBelow_of_order {other : Path} (behind : other.order directory = .lt) :
    ¬ other.IsBelow directory := fun below => by
  have inFront := Std.OrientedCmp.gt_of_lt below.order_eq_lt
  rw [behind] at inFront
  cases inFront

theorem not_isBelow_self (directory : Path) : ¬ directory.IsBelow directory :=
  fun below => below.2 rfl

variable {first : Path} {rest : List Path}

/-- Only what stands behind a directory can lie below it. -/
theorem filter_hasNoneBelow_cons
    (strict : (first :: rest).Pairwise fun left right => left.order right = .lt) :
    (first :: rest).filter (hasNoneBelow (first :: rest)) =
      if hasNoneBelow rest first then first :: rest.filter (hasNoneBelow rest)
      else rest.filter (hasNoneBelow rest) := by
  have ofFirst : hasNoneBelow (first :: rest) first = hasNoneBelow rest first := by
    rw [hasNoneBelow, List.all_cons, decide_eq_false (not_isBelow_self first)]
    rfl
  have ofLater : rest.filter (hasNoneBelow (first :: rest)) = rest.filter (hasNoneBelow rest) := by
    refine List.filter_congr fun later member => ?_
    have notBelow := not_isBelow_of_order (List.rel_of_pairwise_cons strict member)
    rw [hasNoneBelow, List.all_cons, decide_eq_false notBelow]
    rfl
  rw [List.filter_cons, ofFirst, ofLater]

/-- If any directory lies below the first one, the second one does. -/
theorem hasNoneBelow_first_iff {second : Path}
    (strict : (first :: second :: rest).Pairwise fun left right => left.order right = .lt) :
    hasNoneBelow (second :: rest) first = true ↔ second.isUnder first = false := by
  obtain ⟨behindFirst, behindSecond⟩ := List.pairwise_cons.1 strict
  have secondBehind := behindFirst second List.mem_cons_self
  rw [hasNoneBelow_iff, Bool.eq_false_iff]
  constructor
  · intro noneBelow under
    refine noneBelow second List.mem_cons_self ⟨under, fun same => ?_⟩
    rw [order_eq_of_beq (beq_iff.2 same.symm)] at secondBehind
    cases secondBehind
  · intro apart other member below
    refine apart (isUnder_of_between secondBehind ?_ below.1)
    rcases List.mem_cons.1 member with rfl | later
    · rw [order_eq_of_beq (beq_iff.2 rfl)]
      rfl
    · rw [List.rel_of_pairwise_cons behindSecond later]
      rfl

theorem leaves_eq_filter {directories : List Path}
    (strict : directories.Pairwise fun left right => left.order right = .lt) :
    leaves directories = directories.filter (hasNoneBelow directories) := by
  fun_induction leaves directories with
  | case1 first second rest under ih =>
    have dropped : ¬ hasNoneBelow (second :: rest) first = true := by
      rw [hasNoneBelow_first_iff strict, under]
      decide
    rw [filter_hasNoneBelow_cons strict, if_neg dropped, ih strict.tail]
  | case2 first second rest apart ih =>
    have kept : hasNoneBelow (second :: rest) first = true :=
      (hasNoneBelow_first_iff strict).2 (Bool.eq_false_iff.2 apart)
    rw [filter_hasNoneBelow_cons strict, if_pos kept, ih strict.tail]
  | case3 directories short =>
    match directories, short with
    | [], _ => rfl
    | [only], _ =>
      rw [filter_hasNoneBelow_cons strict]
      rfl
    | first :: second :: rest, short => exact absurd rfl (short first second rest)

/-! ## What is found -/

/-- The directory directly contains a unit, and none that does lies below it. -/
structure IsLeaf (project : Project) (directory : Path) : Prop where
  holdsUnit : ∃ path ∈ project.paths, path.parent? = some directory
  noneBelow : ∀ path ∈ project.paths, ∀ other, path.parent? = some other → ¬ other.IsBelow directory

theorem leafDirectories_eq_filter (project : Project) :
    project.leafDirectories = project.directories.filter (hasNoneBelow project.directories) :=
  leaves_eq_filter project.pairwise_directories

theorem pairwise_leafDirectories (project : Project) :
    project.leafDirectories.Pairwise fun left right => left.order right = .lt := by
  rw [leafDirectories_eq_filter]
  exact project.pairwise_directories.filter _

theorem mem_leafDirectories : directory ∈ project.leafDirectories ↔ project.IsLeaf directory := by
  rw [leafDirectories_eq_filter, List.mem_filter, mem_directories, hasNoneBelow_iff]
  constructor
  · rintro ⟨holdsUnit, noneBelow⟩
    exact ⟨holdsUnit, fun path member other parent =>
      noneBelow other (mem_directories.2 ⟨path, member, parent⟩)⟩
  · rintro ⟨holdsUnit, noneBelow⟩
    refine ⟨holdsUnit, fun other member => ?_⟩
    obtain ⟨path, pathMember, parent⟩ := mem_directories.1 member
    exact noneBelow path pathMember other parent

/-- The leaf directories are listed in order and each once. They are the directories with units of
which no other such directory lies below, so a comparison with the next directory alone finds what
a comparison with all of them does. -/
theorem leafDirectories_exact (project : Project) :
    (project.leafDirectories.Pairwise fun left right => left.order right = .lt) ∧
      (∀ directory, directory ∈ project.leafDirectories ↔ project.IsLeaf directory) ∧
      project.leafDirectories = project.directories.filter (hasNoneBelow project.directories) :=
  ⟨project.pairwise_leafDirectories, fun _ => mem_leafDirectories,
    project.leafDirectories_eq_filter⟩

/-- A name that starts another name is no directory above it. By components the empty path is above
all others, so also above those that start from the root or with `..`. -/
example : (leaves [⟨""⟩, ⟨"/a"⟩, ⟨".."⟩, ⟨"a"⟩, ⟨"a/error"⟩, ⟨"a/error/x"⟩, ⟨"a/errors"⟩]).map text =
    ["/a", "..", "a/error/x", "a/errors"] := by decide

/-! ## Leaves and their units -/

theorem eq_of_isUnder_leaf {left right : Path} (leftLeaf : left ∈ project.leafDirectories)
    (rightLeaf : right ∈ project.leafDirectories) (under : right.isUnder left = true) :
    right = left := by
  obtain ⟨⟨_, _, leftParent⟩, noneBelow⟩ := mem_leafDirectories.1 leftLeaf
  obtain ⟨⟨path, member, rightParent⟩, _⟩ := mem_leafDirectories.1 rightLeaf
  by_cases same : right.components = left.components
  · rw [← (components_parent? leftParent).2, ← (components_parent? rightParent).2, same]
  · exact absurd ⟨under, same⟩ (noneBelow path member right rightParent)

theorem pairwise_apart_leafDirectories (project : Project) :
    project.leafDirectories.Pairwise fun left right =>
      left.isUnder right = false ∧ right.isUnder left = false := by
  refine project.pairwise_leafDirectories.imp_of_mem fun {left right} leftLeaf rightLeaf below => ?_
  have different : left ≠ right := by
    rintro rfl
    rw [order_eq_of_beq (beq_iff.2 rfl)] at below
    cases below
  constructor
  · rw [Bool.eq_false_iff]
    exact fun under => different (eq_of_isUnder_leaf rightLeaf leftLeaf under)
  · rw [Bool.eq_false_iff]
    exact fun under => different (eq_of_isUnder_leaf leftLeaf rightLeaf under).symm

/-- In a project whose units are at normal forms a leaf directory is its own normal form. -/
theorem normalize_of_mem_leafDirectories (normal : project.HasNormalPaths)
    (leaf : directory ∈ project.leafDirectories) : directory.normalize = directory := by
  obtain ⟨path, member, parent⟩ := (mem_leafDirectories.1 leaf).holdsUnit
  exact normalize_parent? (normal path member) parent

theorem mem_pathsIn_iff (normal : project.HasNormalPaths)
    (leaf : directory ∈ project.leafDirectories) {path : Path} :
    path ∈ project.pathsIn directory ↔ path ∈ project.paths ∧ path.parent? = some directory := by
  rw [pathsIn, List.mem_filter, normalize_of_mem_leafDirectories normal leaf]
  refine and_congr_right fun _ => ?_
  cases parent : path.parent? with
  | none => simp
  | some other =>
    have written := ofComponents_of_normalize (normalize_of_mem_leafDirectories normal leaf)
    rw [Option.any_some, Path.beq_iff, Option.some.injEq]
    constructor
    · intro same
      rw [← (components_parent? parent).2, same, written]
    · exact congrArg components

end Project

end CreatorMigration
