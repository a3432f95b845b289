import CreatorMigration.Proofs.Path.Joined
import CreatorMigration.Proofs.Path.Order
import CreatorMigration.Store

/-! # Spellings of the directory of a store

`Store.namedDirectory` looks at a directory as it is written to tell whether it is given from outside
of the project or from the root on, and takes the normal form after that. A spelling may hide that a
directory starts with the root, or pretend that it does.

* `Store.NamedAlike` lists the cases in which a spelling and its normal form mean one directory.
* `Store.select_normalize_iff` says that the same stores are found in these cases and in no others.
-/

namespace CreatorMigration

namespace Path

theorem isAbsolute_of_isUnder {path directory : Path} (under : path.isUnder directory = true)
    (relative : path.isAbsolute = false) : directory.isAbsolute = false := by
  obtain ⟨rest, joined⟩ := isUnder_iff.1 under
  rw [isAbsolute, ← joined] at relative
  rw [isAbsolute]
  cases parts : directory.components with
  | nil => rfl
  | cons first others => rwa [parts] at relative

theorem normalLead_of_relative {path : Path} (relative : path.isAbsolute = false) :
    path.normalLead = [] := by
  rw [normalLead, relative, if_neg (by decide)]

end Path

namespace Store

open CreatorMigration.Path

/-! ## When a spelling does not matter -/

/-- A directory and its normal form are taken for the same directory of a project with this root. -/
inductive NamedAlike (root directory : Path) : Prop where
  | absolute (rooted : directory.isAbsolute = true)
  /-- Both start with the root. -/
  | asGiven (given : directory.isUnder root = true) (normal : directory.normalize.isUnder root = true)
  /-- None of them does: they may lose steps up only if the root has no names to take back. -/
  | fromRoot (given : directory.isUnder root = false)
      (normal : directory.normalize.isUnder root = false)
      (steps : directory.climb.ups ≤ 1 ∨ root.climb.names.length ≤ directory.climb.ups % 2)
  /-- Only the spelling starts with the root, which the normal form returns to. -/
  | leavingRoot (given : directory.isUnder root = true)
      (normal : directory.normalize.isUnder root = false) (beside : root.climb.ups = 1)
      (single : root.climb.names.length = 1) (odd : directory.climb.ups % 2 = 1)
  /-- Only the normal form starts with the root, which the spelling leaves before it returns. -/
  | enteringRoot (given : directory.isUnder root = false)
      (normal : directory.normalize.isUnder root = true)
      (high : root.climb.names.length ≤ directory.climb.ups)
      (even : (root.climb.ups + root.climb.names.length) % 2 = 0)

variable {naming : Naming} {project : Project} {directory : Path}

/-! ## Which directory is meant -/

theorem namedDirectory_of_isAbsolute (rooted : directory.isAbsolute = true) :
    namedDirectory project directory = directory.normalize := by
  rw [namedDirectory, if_pos (.inl rooted)]

theorem namedDirectory_of_isUnder (given : directory.isUnder project.root = true) :
    namedDirectory project directory = directory.normalize := by
  rw [namedDirectory, if_pos (.inr given)]

theorem namedDirectory_of_relative (relative : directory.isAbsolute = false)
    (given : directory.isUnder project.root = false) :
    namedDirectory project directory = (project.root.under directory).normalize := by
  rw [namedDirectory, if_neg (by simp [relative, given])]

section

variable {root : Path} (rootNormal : root.normalize.components = root.components)

include rootNormal

theorem climb_of_normal : root.climb = ⟨root.climb.ups % 2, root.climb.names⟩ := by
  rw [← climb_normalize, climb, climb, rootNormal]

theorem ups_le_one_of_normal : root.climb.ups ≤ 1 := by
  have ups := congrArg Climb.ups (climb_of_normal rootNormal)
  dsimp only at ups
  omega

/-- Every path starts with a root that leads nowhere else. -/
theorem climbs_of_not_isUnder (relative : root.isAbsolute = false)
    (apart : directory.isUnder root = false) :
    ¬ (root.climb.ups = 0 ∧ root.climb.names.length = 0) := by
  rintro ⟨noUps, noNames⟩
  have parts : root.components = [] := by
    rw [← rootNormal, components_normalize_climb, normalLead_of_relative relative, noUps,
      List.length_eq_zero_iff.1 noNames]
    rfl
  rw [isUnder, parts] at apart
  cases apart

end

/-! ## Comparing the two readings -/

section

variable (relative : directory.isAbsolute = false)

include relative

/-- The spelling is taken as it is, and its normal form is joined to the root. -/
theorem leavingRoot_iff {root : Path} (rootNormal : root.normalize.components = root.components)
    (given : directory.isUnder root = true) (normal : directory.normalize.isUnder root = false) :
    directory.normalize = (root.under directory.normalize).normalize ↔
      root.climb.ups = 1 ∧ root.climb.names.length = 1 ∧ directory.climb.ups % 2 = 1 := by
  have rootRelative := isAbsolute_of_isUnder given relative
  have sameLead : root.normalLead = directory.normalLead := by
    rw [normalLead_of_relative rootRelative, normalLead_of_relative relative]
  have normalRelative := (isAbsolute_normalize directory).trans relative
  have climbs := climbs_of_not_isUnder rootNormal rootRelative normal
  have few := ups_le_one_of_normal rootNormal
  have noneLeft := Climb.names_andThen_eq_iff root.climb directory.normalize.climb
  rw [climb_normalize] at noneLeft
  rw [eq_comm, normalize_under_eq_iff normalRelative sameLead, climb_normalize, noneLeft,
    Climb.ups_andThen]
  dsimp only
  omega

/-- The spelling is joined to the root, and its normal form is taken as it is. -/
theorem enteringRoot_iff {root : Path} (normal : directory.normalize.isUnder root = true) :
    (root.under directory).normalize = directory.normalize ↔
      root.climb.names.length ≤ directory.climb.ups ∧
        (root.climb.ups + root.climb.names.length) % 2 = 0 := by
  have normalRelative := (isAbsolute_normalize directory).trans relative
  have sameLead : root.normalLead = directory.normalLead := by
    rw [normalLead_of_relative (isAbsolute_of_isUnder normal normalRelative),
      normalLead_of_relative relative]
  rw [normalize_under_eq_iff relative sameLead, Climb.names_andThen_eq_iff, Climb.ups_andThen]
  omega

/-- Both are joined to the root. -/
theorem fromRoot_iff (root : Path) :
    (root.under directory).normalize = (root.under directory.normalize).normalize ↔
      directory.climb.ups ≤ 1 ∨ root.climb.names.length ≤ directory.climb.ups % 2 := by
  have normalRelative := (isAbsolute_normalize directory).trans relative
  rw [normalize_eq_iff, foldl_push_under_eq_stack root relative,
    foldl_push_under_eq_stack root normalRelative, Climb.stack_eq_iff root.normalLead_cases,
    climb_normalize, Climb.andThen, Climb.andThen, List.append_left_inj]
  dsimp only
  constructor
  · rintro ⟨_, names⟩
    have lengths := congrArg List.length names
    rw [List.length_take, List.length_take] at lengths
    omega
  · rintro (few | short)
    · rw [Nat.mod_eq_of_lt (Nat.lt_succ_of_le few)]
      exact ⟨rfl, rfl⟩
    · have none : root.climb.names.length - directory.climb.ups % 2 = 0 := by omega
      have noneThen : root.climb.names.length - directory.climb.ups = 0 := by omega
      rw [none, noneThen]
      exact ⟨by omega, rfl⟩

end

theorem namedDirectory_normalize_iff
    (rootNormal : project.root.normalize.components = project.root.components) :
    namedDirectory project directory = namedDirectory project directory.normalize ↔
      NamedAlike project.root directory := by
  cases rooted : directory.isAbsolute with
  | true =>
    have normalRooted := (isAbsolute_normalize directory).trans rooted
    rw [namedDirectory_of_isAbsolute rooted, namedDirectory_of_isAbsolute normalRooted,
      normalize_normalize]
    exact iff_of_true rfl (.absolute rooted)
  | false =>
    have normalRelative := (isAbsolute_normalize directory).trans rooted
    -- either spelling is taken as given if it is below the root, and joined to the root if not
    cases given : directory.isUnder project.root with
    | true =>
      rw [namedDirectory_of_isUnder given]
      cases normal : directory.normalize.isUnder project.root with
      | true =>
        rw [namedDirectory_of_isUnder normal, normalize_normalize]
        exact iff_of_true rfl (.asGiven given normal)
      | false =>
        rw [namedDirectory_of_relative normalRelative normal,
          leavingRoot_iff rooted rootNormal given normal]
        constructor
        · rintro ⟨beside, single, odd⟩
          exact .leavingRoot given normal beside single odd
        · intro alike
          cases alike with
          | leavingRoot _ _ beside single odd => exact ⟨beside, single, odd⟩
          | absolute | asGiven | fromRoot | enteringRoot => simp_all
    | false =>
      rw [namedDirectory_of_relative rooted given]
      cases normal : directory.normalize.isUnder project.root with
      | true =>
        rw [namedDirectory_of_isUnder normal, normalize_normalize, enteringRoot_iff rooted normal]
        constructor
        · rintro ⟨high, even⟩
          exact .enteringRoot given normal high even
        · intro alike
          cases alike with
          | enteringRoot _ _ high even => exact ⟨high, even⟩
          | absolute | asGiven | fromRoot | leavingRoot => simp_all
      | false =>
        rw [namedDirectory_of_relative normalRelative normal, fromRoot_iff rooted]
        constructor
        · exact .fromRoot given normal
        · intro alike
          cases alike with
          | fromRoot _ _ steps => exact steps
          | absolute | asGiven | leavingRoot | enteringRoot => simp_all

/-! ## The stores that are found -/

theorem ofDirectory_inj {left right : Path} :
    ofDirectory naming project left = ofDirectory naming project right ↔ left = right :=
  ⟨congrArg Store.directory, congrArg (ofDirectory naming project)⟩

theorem select_eq_map {directories : List Path} (named : directories ≠ []) :
    select naming project directories =
      directories.map fun directory =>
        ofDirectory naming project (namedDirectory project directory) := by
  cases directories with
  | nil => exact absurd rfl named
  | cons => rfl

/-- For some directories and for their normal forms the same stores are found, in the same order,
exactly if each of the directories is named alike by both. -/
theorem select_normalize_iff (naming : Naming)
    (rootNormal : project.root.normalize.components = project.root.components)
    (directories : List Path) :
    select naming project directories = select naming project (directories.map normalize) ↔
      ∀ directory ∈ directories, NamedAlike project.root directory := by
  cases directories with
  | nil => simp [select]
  | cons first rest =>
    rw [select_eq_map (by simp), select_eq_map (by simp), List.map_map, List.map_inj_left]
    simp only [Function.comp_apply, ofDirectory_inj, namedDirectory_normalize_iff rootNormal]

/-- A project with one store, whose root has a name. -/
def storeInWeb : Project :=
  Project.ofSources ⟨"web"⟩ {} [(⟨"web/src/store/b/b.actions.ts"⟩, "")]

theorem select_normalize_iff_storeInWeb :
    storeInWeb.root.normalize.components = storeInWeb.root.components ∧
      (select {} storeInWeb [⟨"src/./store/b"⟩, ⟨"web/x/../src/store/b"⟩] =
          select {} storeInWeb ([⟨"src/./store/b"⟩, ⟨"web/x/../src/store/b"⟩].map normalize) ↔
        ∀ directory ∈ [(⟨"src/./store/b"⟩ : Path), ⟨"web/x/../src/store/b"⟩],
          NamedAlike storeInWeb.root directory) ∧
      ∀ directory ∈ [(⟨"src/./store/b"⟩ : Path), ⟨"web/x/../src/store/b"⟩],
        NamedAlike storeInWeb.root directory := by
  have rootNormal : storeInWeb.root.normalize.components = storeInWeb.root.components := by decide
  refine ⟨rootNormal, select_normalize_iff {} rootNormal _, ?_⟩
  refine List.forall_mem_cons.2 ⟨.fromRoot (by decide) (by decide) (by decide), ?_⟩
  exact List.forall_mem_singleton.2 (.asGiven (by decide) (by decide))

/-- With a dot in front the directory of the store is joined to the root that it starts with, where
no unit is. -/
theorem not_select_normalize_leadingDot :
    (select {} storeInWeb [⟨"./web/src/store/b"⟩]).map (hasAnyUnit storeInWeb) = [false] ∧
      (select {} storeInWeb ([⟨"./web/src/store/b"⟩].map normalize)).map (hasAnyUnit storeInWeb) =
        [true] ∧
      select {} storeInWeb [⟨"./web/src/store/b"⟩] ≠
        select {} storeInWeb ([⟨"./web/src/store/b"⟩].map normalize) := by
  have missed : (select {} storeInWeb [⟨"./web/src/store/b"⟩]).map (hasAnyUnit storeInWeb) =
      [false] := by
    decide +kernel
  have found : (select {} storeInWeb ([⟨"./web/src/store/b"⟩].map normalize)).map
      (hasAnyUnit storeInWeb) = [true] := by
    decide +kernel
  refine ⟨missed, found, fun same => ?_⟩
  rw [same, found] at missed
  cases missed

end Store

end CreatorMigration
