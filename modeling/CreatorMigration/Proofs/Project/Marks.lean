import CreatorMigration.Project.Imports
import CreatorMigration.Proofs.Project.Texts

/-! # What a unit was

A unit is marked with the texts that it had when it was loaded and when it was last written. What
units, projects and edits are asked for does not depend on these marks.
-/

namespace CreatorMigration

/-- What a unit was. -/
structure Marks where
  loaded : String
  saved : String
deriving Inhabited

/-- The marks of units by the components of their paths. -/
abbrev Marking := List Component → Marks

namespace SourceUnit

def marks (unit : SourceUnit) : Marks := ⟨unit.loaded, unit.saved⟩

/-- The unit with other marks. -/
def remarked (unit : SourceUnit) (marking : Marking) : SourceUnit :=
  { unit with
    loaded := (marking unit.path.components).loaded
    saved := (marking unit.path.components).saved }

variable (unit : SourceUnit) (marking : Marking)

@[simp] theorem path_remarked : (unit.remarked marking).path = unit.path := rfl

@[simp] theorem text_remarked : (unit.remarked marking).text = unit.text := rfl

@[simp] theorem imports_remarked : (unit.remarked marking).imports = unit.imports := rfl

@[simp] theorem reExports_remarked : (unit.remarked marking).reExports = unit.reExports := rfl

@[simp] theorem referencesTo_remarked (name : String) :
    (unit.remarked marking).referencesTo name = unit.referencesTo name := rfl

theorem eq_remarked {old new : SourceUnit} {marking : Marking}
    (samePath : new.path = old.path) (sameText : new.text = old.text)
    (marked : marking new.path.components = new.marks) : new = old.remarked marking := by
  obtain ⟨path, text, tree, loaded, saved, tree_eq⟩ := old
  obtain ⟨newPath, newText, newTree, newLoaded, newSaved, newTree_eq⟩ := new
  cases samePath
  cases sameText
  cases tree_eq
  cases newTree_eq
  simp [remarked, marked, marks]

theorem apply_remarked (edits : List Edit) :
    (unit.remarked marking).apply edits = (unit.apply edits).map (·.remarked marking) := by
  unfold apply
  rw [text_remarked]
  split
  · rfl
  · cases Edit.applyAll unit.text edits <;> rfl

end SourceUnit

namespace Project

/-- The project with other marks on its units. -/
def remarked (project : Project) (marking : Marking) : Project :=
  project.mapUnits (·.remarked marking) fun _ => rfl

variable (project : Project) (marking : Marking)

/-! ## Questions -/

@[simp] theorem units_remarked :
    (project.remarked marking).units = project.units.map (·.remarked marking) := rfl

@[simp] theorem paths_remarked : (project.remarked marking).paths = project.paths := by
  simp [paths, Function.comp_def]

theorem unit?_remarked (path : Path) :
    (project.remarked marking).unit? path = (project.unit? path).map (·.remarked marking) := by
  simp [unit?, remarked, mapUnits, List.find?_map, Function.comp_def]

theorem require_remarked (path : Path) :
    (project.remarked marking).require path =
      (project.require path).map (·.remarked marking) := by
  unfold require
  rw [unit?_remarked]
  cases project.unit? path <;> rfl

@[simp] theorem resolve_remarked (importer : Path) (specifier : String) :
    (project.remarked marking).resolve importer specifier = project.resolve importer specifier := by
  rw [resolve, resolve, paths_remarked]
  rfl

theorem exporter?_remarked (importer : Path) (name : String) :
    (project.remarked marking).exporter? importer name = project.exporter? importer name := by
  have same : (project.remarked marking).exporters name = project.exporters name := by
    simp only [exporters, remarked, mapUnits, List.filter_map, List.map_map]
    rfl
  rw [exporter?, exporter?, same]

theorem passedOnAs_remarked (target : Path) (name : String) (unit : SourceUnit) :
    (project.remarked marking).passedOnAs target name (unit.remarked marking) =
      project.passedOnAs target name unit := by
  unfold passedOnAs
  simp only [resolve_remarked, SourceUnit.path_remarked, SourceUnit.reExports_remarked]

theorem localsFor_remarked (routes : List Route) (unit : SourceUnit) :
    (project.remarked marking).localsFor routes (unit.remarked marking) =
      project.localsFor routes unit := by
  unfold localsFor
  simp only [resolve_remarked, SourceUnit.path_remarked, SourceUnit.imports_remarked]

theorem references_remarked (declaring : Path) (name : String) :
    (project.remarked marking).references declaring name = project.references declaring name := by
  have routes : (project.remarked marking).routes declaring.normalize name =
      project.routes declaring.normalize name := by
    rw [Project.routes, Project.routes, units_remarked, List.filter_map, List.flatMap_map]
    simp only [passedOnAs_remarked]
    rfl
  have own : ((project.remarked marking).unit? declaring.normalize).toList =
      ((project.unit? declaring.normalize).toList).map (·.remarked marking) := by
    rw [unit?_remarked]
    cases project.unit? declaring.normalize <;> rfl
  unfold references
  dsimp only
  rw [routes, own, units_remarked, List.filter_map, List.flatMap_map, List.flatMap_map]
  simp only [localsFor_remarked, SourceUnit.referencesTo_remarked]
  rfl

/-! ## Edits -/

theorem replaceUnit_remarked (changed : SourceUnit) :
    (project.remarked marking).replaceUnit (changed.remarked marking) =
      (project.replaceUnit changed).remarked marking := by
  unfold replaceUnit remarked mapUnits
  simp only [List.map_map]
  congr 1
  refine List.map_congr_left fun other _ => ?_
  -- units with one path have the same marks, in whatever spelling of it
  cases same : other.path == changed.path with
  | false => simp [same]
  | true => simp [same, SourceUnit.remarked, Path.beq_iff.1 same]

theorem apply_remarked (path : Path) (edits : List Edit) :
    (project.remarked marking).apply path edits =
      (project.apply path edits).map (·.remarked marking) := by
  unfold apply
  rw [require_remarked]
  cases project.require path with
  | error => rfl
  | ok unit =>
    simp only [Except.map, bind, Except.bind]
    rw [SourceUnit.apply_remarked]
    cases changes : unit.apply edits with
    | error => rfl
    | ok changed => exact congrArg Except.ok (replaceUnit_remarked project marking changed)

/-! ## Projects that differ in their marks -/

/-- The projects differ at most in what their units were. -/
structure Mirrors (left right : Project) : Prop where
  root_eq : right.root = left.root
  layout_eq : right.layout = left.layout
  texts : SameTexts left right

theorem Mirrors.refl (project : Project) : Mirrors project project := ⟨rfl, rfl, .refl project⟩

theorem mirrors_remarked : Mirrors project (project.remarked marking) :=
  ⟨rfl, rfl, List.forall₂_map_right_iff.2 (List.forall₂_same.2 fun _ _ => ⟨rfl, rfl⟩)⟩

/-- The marks that the units of a project have. -/
def marks (project : Project) : Marking := fun components =>
  ((project.units.find? fun unit => unit.path.components == components).map
    SourceUnit.marks).getD default

theorem marks_of_mem {project : Project} {unit : SourceUnit} (member : unit ∈ project.units) :
    project.marks unit.path.components = unit.marks := by
  unfold Project.marks
  cases found : project.units.find? fun other => other.path.components == unit.path.components with
  | none => exact absurd BEq.rfl (List.find?_eq_none.1 found unit member)
  | some other =>
    rw [project.eq_of_path_beq (List.mem_of_find?_eq_some found) member
      (List.find?_some (p := fun other : SourceUnit => other.path == unit.path) found)]
    rfl

/-- Of two such projects one is the other with marks of its own. -/
theorem Mirrors.eq_remarked {left right : Project} (mirrors : Mirrors left right) :
    right = left.remarked right.marks := by
  have units : ∀ {olds news : List SourceUnit} {marking : Marking},
      List.Forall₂ (fun old new : SourceUnit => new.path = old.path ∧ new.text = old.text)
        olds news → (∀ new ∈ news, marking new.path.components = new.marks) →
      news = olds.map (·.remarked marking) := by
    intro olds news marking same marked
    induction same with
    | nil => rfl
    | cons kept _ inductionHypothesis =>
      rw [List.forall_mem_cons] at marked
      rw [List.map_cons, ← SourceUnit.eq_remarked kept.1 kept.2 marked.1,
        ← inductionHypothesis marked.2]
  have sameUnits := units mirrors.texts fun _ => marks_of_mem
  obtain ⟨root, layout, others, ordered⟩ := right
  obtain ⟨rfl, rfl, _⟩ := mirrors
  simp only [remarked, mapUnits, mk.injEq, true_and]
  exact sameUnits

end Project

end CreatorMigration
