import CreatorMigration.Proofs.Path.Specifier
import CreatorMigration.Proofs.Project.Failures

/-! # Spellings of the path of a unit

A unit is found by every path with its normal form. Some operations of a project read the normal
form alone, others compare the path as it was given, or walk from it.

* `Project.ReadsAlike` is what holds for every spelling, `ReadsAlike.of_normalize` proves it.
* `Project.resolve_spelling` says which spellings a specifier is resolved alike from.
* `Update.AlikeAt` relates the updates for two spellings, and is kept by sequencing.
-/

namespace CreatorMigration

/-! ## Paths -/

namespace Path

variable {spelling path : Path}

/-- A path that is the normal form of a spelling has the normal form of that spelling. -/
theorem normalize_eq_of_beq (same : (spelling.normalize == path) = true) :
    spelling.normalize = path.normalize := by
  rw [← normalize_normalize, normalize, beq_iff.1 same, ← normalize]

theorem normalize_congr (same : spelling.components = path.components) :
    spelling.normalize = path.normalize := by
  rw [normalize, normalize, same]

theorem parent?_congr (same : spelling.components = path.components) :
    spelling.parent? = path.parent? := by
  rw [parent?, parent?, same]

theorem beq_congr_right (same : spelling.components = path.components) (other : Path) :
    (other == spelling) = (other == path) := by
  rw [beq_comm other, beq_comm other, beq_congr same]

/-- What the directory of a file leaves on the stack: the parts in front of the name. -/
theorem foldl_push_directory {directory : List Component} {name : String}
    (written : path.components = directory ++ [.name name]) :
    ((path.parent?).getD ⟨""⟩).components.foldl push [] = directory.foldl push [] := by
  have front : path.components.dropLast = directory := by rw [written, List.dropLast_concat]
  have parent : path.parent? = some (ofComponents directory) := by
    rw [parent?, front, written, List.getLast?_concat]
  rw [parent, Option.getD_some, ← front, components_dropLast]

theorem exists_of_fileName? {name : String} (named : path.fileName? = some name) :
    ∃ directory, path.components = directory ++ [.name name] := by
  unfold fileName? at named
  split at named
  · next last =>
    cases named
    exact List.getLast?_eq_some_iff.1 last
  · cases named

/-- The directory of a spelling that ends in a name is walked like that of the path it stands for. -/
theorem foldl_push_directory_spelling (same : (spelling.normalize == path) = true) {name : String}
    (named : spelling.fileName? = some name) :
    ((spelling.parent?).getD ⟨""⟩).components.foldl push [] =
      ((path.parent?).getD ⟨""⟩).components.foldl push [] := by
  obtain ⟨directory, written⟩ := exists_of_fileName? named
  have front : spelling.components.dropLast = directory := by
    rw [written, List.dropLast_concat]
  have normal : NormalStack (directory.foldl push []) := by
    rw [← front, ← components_dropLast]
    exact normalStack_foldl_components _
  have stored : path.components = (directory.foldl push []).reverse ++ [.name name] := by
    rw [← beq_iff.1 same, components_normalize, normalComponents, written, List.foldl_append,
      List.foldl_cons, List.foldl_nil, push_name, List.reverse_cons]
  rw [foldl_push_directory written, foldl_push_directory stored, normal.foldl_push_reverse]

end Path

/-! ## Updates for two spellings -/

namespace Update

variable {ε α β : Type} {path : Path}

/-- From every project with a unit at a path the updates end alike, and no unit is moved. -/
structure AlikeAt (path : Path) (update other : Update ε α) : Prop where
  same : ∀ {project : Project}, project.contains path = true → update project = other project
  keeps : ∀ {project result : Project} {answer : α}, update project = .ok answer result →
    result.paths = project.paths

theorem contains_of_paths_eq {before after : Project} (same : after.paths = before.paths)
    (contained : before.contains path = true) : after.contains path = true := by
  obtain ⟨unit, found⟩ := Option.isSome_iff_exists.1 contained
  obtain ⟨changed, foundThen⟩ := Project.exists_unit?_of_paths_eq same found
  exact Option.isSome_iff_exists.2 ⟨changed, foundThen⟩

namespace AlikeAt

theorem of_eq {update other : Update ε α} (same : update = other)
    (keeps : ∀ {project result : Project} {answer : α}, update project = .ok answer result →
      result.paths = project.paths) : AlikeAt path update other :=
  ⟨fun _ => by rw [same], keeps⟩

theorem bind {first other : Update ε α} {next otherNext : α → Update ε β}
    (alike : AlikeAt path first other)
    (alikeThen : ∀ answer, AlikeAt path (next answer) (otherNext answer)) :
    AlikeAt path (first >>= next) (other >>= otherNext) := by
  constructor
  · intro project contained
    have firstSame := alike.same contained
    cases ran : first project with
    | ok answer between =>
      rw [bind_of_ok ran, bind_of_ok (firstSame ▸ ran)]
      exact (alikeThen answer).same (contains_of_paths_eq (alike.keeps ran) contained)
    | error error left => rw [bind_of_error ran, bind_of_error (firstSame ▸ ran)]
  · intro project result answer ran
    obtain ⟨middle, between, ranFirst, ranThen⟩ := bind_eq_ok_iff.1 ran
    exact ((alikeThen middle).keeps ranThen).trans (alike.keeps ranFirst)

theorem pure {value other : α} (same : value = other) :
    AlikeAt path (Pure.pure value : Update ε α) (Pure.pure other) :=
  of_eq (by rw [same]) fun ran => by rw [(pure_eq_ok_iff.1 ran).2]

theorem get : AlikeAt path (MonadState.get : Update ε Project) MonadState.get :=
  of_eq rfl fun ran => by rw [(get_eq_ok_iff.1 ran).2]

end AlikeAt

variable {spelling : Path}

theorem alikeAt_require (same : spelling.normalize = path.normalize) :
    AlikeAt path (require spelling) (require path) := by
  refine ⟨fun {project} contained => ?_, fun ran => by rw [(require_eq_ok_iff.1 ran).2]⟩
  obtain ⟨unit, found⟩ := Option.isSome_iff_exists.1 contained
  have foundSo : project.unit? spelling = some unit := by
    rw [← found, Project.unit?, Project.unit?, same]
  rw [require_eq_ok found, require_eq_ok foundSo]

theorem alikeAt_apply (same : spelling.normalize = path.normalize) (edits : List Edit) :
    AlikeAt path (apply spelling edits) (apply path edits) := by
  refine ⟨fun {project} contained => ?_, fun ran =>
    (Project.sameBut_apply (apply_eq_ok_iff.1 ran)).paths_eq⟩
  obtain ⟨unit, found⟩ := Option.isSome_iff_exists.1 contained
  have foundSo : project.unit? spelling = some unit := by
    rw [← found, Project.unit?, Project.unit?, same]
  rw [apply, apply, step, step, Project.apply, Project.apply, Project.require, Project.require,
    found, foundSo]

end Update

namespace Project

open Update

variable {spelling path : Path}

/-! ## What reads the normal form alone -/

/-- What a project answers alike for every two paths with one normal form. -/
structure ReadsAlike (project : Project) (spelling path : Path) : Prop where
  unit?_eq : project.unit? spelling = project.unit? path
  contains_eq : project.contains spelling = project.contains path
  apply_eq : ∀ edits, project.apply spelling edits = project.apply path edits
  references_eq : ∀ name, project.references spelling name = project.references path name
  addImport_eq : ∀ name module,
    addImport spelling name module project = addImport path name module project

theorem alikeAt_importName (same : spelling.normalize = path.normalize) (name module : String)
    (isSameModule : Import → Bool) :
    AlikeAt path (importName spelling name module isSameModule)
      (importName path name module isSameModule) := by
  refine (alikeAt_require same).bind fun unit => ?_
  cases unit.importEdit? name module isSameModule with
  | none => exact .pure rfl
  | some edit => exact (alikeAt_apply same [edit]).bind fun _ => .pure rfl

theorem ReadsAlike.of_normalize {project : Project} (same : spelling.normalize = path.normalize)
    (contained : project.contains path = true) : project.ReadsAlike spelling path := by
  have found : project.unit? spelling = project.unit? path := by rw [unit?, unit?, same]
  obtain ⟨unit, foundPath⟩ := Option.isSome_iff_exists.1 contained
  refine ⟨found, by rw [contains, contains, found], fun edits => ?_, fun name => ?_,
    fun name module => ?_⟩
  · rw [apply, apply, require, require, found, foundPath]
  · rw [references, references, same]
  · exact (alikeAt_importName same name module _).same contained

/-! ## Resolution -/

/-- From a spelling that ends in a name each specifier leads where it leads from the path itself.
One that ends in `..` is taken for a file of the directory that it goes up from. -/
theorem resolve_spelling (project : Project) (same : (spelling.normalize == path) = true)
    (named : spelling.fileName?.isSome = true) (specifier : String) :
    project.resolve spelling specifier = project.resolve path specifier := by
  obtain ⟨name, named⟩ := Option.isSome_iff_exists.1 named
  unfold resolve Resolution.resolve
  by_cases dotted : Text.hasStart "." specifier = true
  · rw [if_pos dotted, if_pos dotted, Resolution.relativeBase, Resolution.relativeBase,
      Path.normalize, Path.normalize, Path.normalComponents, Path.normalComponents,
      Path.foldl_push_under _ dotted, Path.foldl_push_under _ dotted,
      Path.foldl_push_directory_spelling same named]
  · rw [if_neg dotted, if_neg dotted]

/-! ## What compares components -/

section

variable (same : spelling.components = path.components)

include same

theorem resolve_congr (project : Project) (specifier : String) :
    project.resolve spelling specifier = project.resolve path specifier := by
  unfold resolve Resolution.resolve Resolution.relativeBase
  rw [Path.parent?_congr same]

theorem exporter?_congr (project : Project) (name : String) :
    project.exporter? spelling name = project.exporter? path name := by
  have nearest (paths : List Path) : nearestTo spelling paths = nearestTo path paths := by
    simp only [nearestTo, Path.sharedDepth, same]
  simp only [exporter?, Path.beq_congr_right same, nearest]

theorem alikeAt_bringIn (table : ImportTable) (name : String) :
    AlikeAt path (bringIn table spelling name) (bringIn table path name) := by
  have sameNormal := Path.normalize_congr same
  unfold bringIn
  cases table.find? name with
  | some module => exact alikeAt_importName sameNormal name module _
  | none =>
    refine AlikeAt.get.bind fun project => ?_
    rw [exporter?_congr same]
    cases project.exporter? path name with
    | none => exact .pure rfl
    | some target =>
      refine AlikeAt.get.bind fun project => ?_
      simp only [Path.relativeSpecifier, Path.parent?_congr same, resolve_congr same]
      exact alikeAt_importName sameNormal name _ _

theorem alikeAt_bringInAll (table : ImportTable) (names : List String) :
    AlikeAt path (bringInAll table spelling names) (bringInAll table path names) := by
  induction names with
  | nil => exact .pure rfl
  | cons name rest inductionHypothesis =>
    exact (alikeAt_bringIn same table name).bind fun _ => inductionHypothesis.bind fun _ =>
      .pure rfl

theorem alikeAt_alignImports (table : ImportTable) :
    AlikeAt path (alignImports table spelling) (alignImports table path) := by
  have sameNormal := Path.normalize_congr same
  exact (alikeAt_require sameNormal).bind fun _ => (alikeAt_bringInAll same table _).bind fun _ =>
    (alikeAt_require sameNormal).bind fun _ => (alikeAt_apply sameNormal _).bind fun _ =>
      .pure rfl

end

end Project

end CreatorMigration
