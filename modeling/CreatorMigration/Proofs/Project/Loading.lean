import CreatorMigration.Proofs.Migration.Plans
import CreatorMigration.Proofs.Migration.Replacement
import CreatorMigration.Proofs.Project.Saving

/-! # Loaded projects

A project that is loaded from files is in step with them, and its paths are in normal form.
-/

namespace CreatorMigration

/-- The names in a file system are names: none is empty or stands for a directory, and none has a
slash. -/
def Disk.HasProperNames (disk : Disk) : Prop :=
  ∀ entry ∈ disk.entries, ∀ name ∈ entry.1, (Component.name name).IsSegment

namespace Project

variable {disk : Disk} {layout : ProjectLayout} {root : Path} {project : Project}

/-- The names of a file put on the normal path of the root leave a normal path. -/
theorem normalStack_foundPath (root : Path) {names : List String}
    (proper : ∀ name ∈ names, (Component.name name).IsSegment) :
    Path.NormalStack (root.normalize.components ++ names.map Component.name).reverse := by
  obtain ⟨above, bottom, stack, bottomMember, aboveNormal⟩ := Path.normalStack_foldl_components root
  refine ⟨(names.map Component.name).reverse ++ above, bottom, ?_, bottomMember, ?_⟩
  · rw [List.reverse_append, Path.components_normalize, Path.normalComponents, List.reverse_reverse,
      stack, List.append_assoc]
  · intro component member
    rcases List.mem_append.1 member with member | member
    · obtain ⟨name, nameMember, rfl⟩ := List.mem_map.1 (List.mem_reverse.1 member)
      exact ⟨proper name nameMember, by simp⟩
    · exact aboveNormal component member

/-- A found file is reached by its names from the root on. -/
theorem components_foundPath {names : List String}
    (proper : ∀ name ∈ names, (Component.name name).IsSegment) :
    (foundPath root names).components =
      root.normalize.components ++ names.map Component.name := by
  have written := (normalStack_foundPath root proper).components_ofComponents
  rwa [List.reverse_reverse] at written

/-- What the load of a unit answers. -/
theorem loadUnit_eq_ok_iff {path : Path} {unit : SourceUnit} :
    loadUnit disk path = .ok unit ↔
      ∃ text, disk.read path = .ok text ∧ unit = SourceUnit.ofText path text := by
  unfold loadUnit
  cases disk.read path <;> simp [eq_comm]

/-- The path of a unit below a root leads to a file by proper names. -/
structure IsFound (root path : Path) (names : List String) : Prop where
  path_eq : path = foundPath root names
  proper : ∀ name ∈ names, (Component.name name).IsSegment
  named : ∃ name, path.fileName? = some name

theorem exists_isFound_of_mem_unitPaths (proper : disk.HasProperNames) {paths : List Path}
    (listed : unitPaths disk layout root = .ok paths) {path : Path} (member : path ∈ paths) :
    ∃ names, IsFound root path names := by
  unfold unitPaths at listed
  split at listed
  · cases listed
  · next location _ _ =>
    rw [← Except.ok.inj listed, Path.sortedSet, Ordered.ofList] at member
    have found := (Ordered.mem_sort _ _).1 (Ordered.subset_of_mem_dropRepeats _ _ member)
    obtain ⟨place, isUnit⟩ := List.mem_filter.1 found
    obtain ⟨names, below, rfl⟩ := List.mem_map.1 place
    -- a listed path is the rest of an entry of the disk behind the location of the root
    obtain ⟨⟨whole, entry⟩, entryMember, leads⟩ := List.mem_filterMap.1 below
    refine ⟨names, rfl, fun name nameMember => ?_, ?_⟩
    · dsimp only at leads
      split at leads
      · obtain ⟨isBelow, _⟩ := Option.filter_eq_some_iff.1 leads
        unfold Disk.below? at isBelow
        split at isBelow
        · cases isBelow
          exact proper _ entryMember name (List.mem_of_mem_drop nameMember)
        · cases isBelow
      · cases leads
    · obtain ⟨name, named, _⟩ := (Option.any_eq_true _ _).1 isUnit
      exact ⟨name, named⟩

/-- A loaded unit is a file below the root with the text of the file. -/
theorem exists_of_load (proper : disk.HasProperNames) (loaded : load disk layout root = .ok project)
    {unit : SourceUnit} (member : unit ∈ project.units) :
    ∃ names, IsFound root unit.path names ∧ disk.read unit.path = .ok unit.saved ∧
      unit.saved = unit.loaded := by
  unfold load at loaded
  cases listed : unitPaths disk layout root with
  | error => simp [listed, bind, Except.bind] at loaded
  | ok paths =>
    cases read : paths.mapM (loadUnit disk) with
    | error => simp [listed, read, bind, Except.bind] at loaded
    | ok units =>
      simp only [listed, read, bind, Except.bind, pure, Except.pure, Except.ok.injEq] at loaded
      subst loaded
      have unitMember : unit ∈ units :=
        (Ordered.mem_sort _ _).1 (Ordered.subset_of_mem_dropRepeats _ _ member)
      obtain ⟨path, pathMember, loads⟩ :=
        exists_related_of_mem (mapM_eq_ok_iff.1 read).flip unitMember
      obtain ⟨text, reads, rfl⟩ := loadUnit_eq_ok_iff.1 loads
      obtain ⟨names, found⟩ := exists_isFound_of_mem_unitPaths proper listed pathMember
      exact ⟨names, found, reads, rfl⟩

theorem IsFound.normalize_components {path : Path} {names : List String}
    (found : IsFound root path names) : path.normalize.components = path.components := by
  have normal := normalStack_foundPath root found.proper
  have kept := normal.foldl_push_reverse
  rw [List.reverse_reverse, ← components_foundPath found.proper, ← found.path_eq] at kept
  rw [Path.components_normalize, Path.normalComponents, kept, List.reverse_reverse]

theorem hasNormalPaths_load (proper : disk.HasProperNames)
    (loaded : load disk layout root = .ok project) : project.HasNormalPaths := by
  intro path member
  obtain ⟨unit, unitMember, rfl⟩ := List.mem_map.1 member
  obtain ⟨_, found, _⟩ := exists_of_load proper loaded unitMember
  exact found.normalize_components

/-- Found files at one place have one path. -/
theorem IsFound.path_eq_of_locate {left right : Path} {leftNames rightNames : List String}
    {location : Location} (leftFound : IsFound root left leftNames)
    (rightFound : IsFound root right rightNames) (leftLed : disk.locate left = .ok location)
    (rightLed : disk.locate right = .ok location) : left = right := by
  -- both paths go through the root, so what follows are the last names of the place
  have ends {path : Path} {names : List String} (found : IsFound root path names)
      (led : disk.locate path = .ok location) :
      ∃ base, disk.follow disk.workingDirectory root.normalize.components = .ok base ∧
        location = base ++ names := by
    unfold Disk.locate at led
    split at led
    · cases led
    · rw [found.path_eq, components_foundPath found.proper] at led
      exact Disk.exists_of_follow_names led
  obtain ⟨base, toBase, leftEnds⟩ := ends leftFound leftLed
  obtain ⟨other, toOther, rightEnds⟩ := ends rightFound rightLed
  cases toBase.symm.trans toOther
  have sameNames : leftNames = rightNames := List.append_cancel_left (leftEnds.symm.trans rightEnds)
  rw [leftFound.path_eq, rightFound.path_eq, sameNames]

/-- A project is in step with the files that it is loaded from. -/
theorem inStep_of_load (proper : disk.HasProperNames)
    (loaded : load disk layout root = .ok project) : Workspace.InStep ⟨project, disk⟩ := by
  constructor
  · intro unit member
    obtain ⟨names, found, reads, _⟩ := exists_of_load proper loaded member
    obtain ⟨name, named⟩ := found.named
    exact Disk.exists_isFile_of_read named reads
  · intro left leftMember right rightMember location leftLed rightLed
    obtain ⟨leftUnit, leftUnitMember, rfl⟩ := List.mem_map.1 leftMember
    obtain ⟨rightUnit, rightUnitMember, rfl⟩ := List.mem_map.1 rightMember
    obtain ⟨_, leftFound, _⟩ := exists_of_load proper loaded leftUnitMember
    obtain ⟨_, rightFound, _⟩ := exists_of_load proper loaded rightUnitMember
    rw [leftFound.path_eq_of_locate rightFound leftLed rightLed]
    exact Path.beq_iff.2 rfl

end Project

end CreatorMigration
