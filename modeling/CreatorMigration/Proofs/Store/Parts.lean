import CreatorMigration.Proofs.Path.Specifier
import CreatorMigration.Proofs.Project.Directories
import CreatorMigration.Store

/-! # The parts that units play in stores

A store of a directory is made of the units that are picked by their names, the conventional one or
else the only one with the suffix, and of all units with the suffix of effects.

* `Store.PickedAs` lists how a unit comes to be picked, one with a file name or one without.
* `Store.AssignsParts` is the promise that each unit plays one part in one store, and
  `Store.assignsParts` keeps it for all suffixes that are apart.
-/

namespace CreatorMigration

/-! ## Suffixes -/

/-- The suffixes of the units of a store. -/
def Naming.partSuffixes (naming : Naming) : List String :=
  [naming.actionsSuffix, naming.reducerSuffix, naming.effectsSuffix]

/-- The suffixes stay within a file name, and none of them ends another one. -/
structure Naming.SuffixesApart (naming : Naming) : Prop where
  slashFree : ∀ suffix ∈ naming.partSuffixes, '/' ∉ suffix.toList
  apart : naming.partSuffixes.Pairwise fun left right =>
    Text.hasEnd left right = false ∧ Text.hasEnd right left = false

namespace StorePart

/-- The suffix of the units that play a part. -/
def suffix? (naming : Naming) : StorePart → Option String
  | declaration => some naming.actionsSuffix
  | reducer => some naming.reducerSuffix
  | pipeline => some naming.effectsSuffix
  | other => none

variable {naming : Naming} {part otherPart : StorePart} {suffix otherSuffix : String}

theorem mem_partSuffixes (told : part.suffix? naming = some suffix) :
    suffix ∈ naming.partSuffixes := by
  cases part with
  | declaration | reducer | pipeline =>
    cases told
    simp [Naming.partSuffixes]
  | other => cases told

theorem eq_of_hasEnd_suffix (apart : naming.SuffixesApart) (told : part.suffix? naming = some suffix)
    (otherTold : otherPart.suffix? naming = some otherSuffix)
    (ends : Text.hasEnd suffix otherSuffix = true) : part = otherPart := by
  have pairs := apart.apart
  cases part <;> cases otherPart <;> simp_all [suffix?, Naming.partSuffixes]

/-- No text has the suffixes of two parts. -/
theorem eq_of_hasEnd (apart : naming.SuffixesApart) (told : part.suffix? naming = some suffix)
    (otherTold : otherPart.suffix? naming = some otherSuffix) {text : String}
    (ends : Text.hasEnd suffix text = true) (otherEnds : Text.hasEnd otherSuffix text = true) :
    part = otherPart := by
  have nested := List.suffix_or_suffix_of_suffix (List.isSuffixOf_iff_suffix.1 ends)
    (List.isSuffixOf_iff_suffix.1 otherEnds)
  rcases nested with within | within
  · exact eq_of_hasEnd_suffix apart told otherTold (List.isSuffixOf_iff_suffix.2 within)
  · exact (eq_of_hasEnd_suffix apart otherTold told (List.isSuffixOf_iff_suffix.2 within)).symm

theorem suffix_ne_empty (apart : naming.SuffixesApart) (told : part.suffix? naming = some suffix) :
    suffix ≠ "" := by
  rintro rfl
  have endsAll (text : String) : Text.hasEnd "" text = true := by simp [Text.hasEnd]
  have isDeclaration : part = declaration := eq_of_hasEnd_suffix apart told rfl (endsAll _)
  have isReducer : part = reducer := eq_of_hasEnd_suffix apart told rfl (endsAll _)
  cases isDeclaration.symm.trans isReducer

/-- A path tells the part whose suffix its file name has, and no part if it has none of them. -/
theorem ofPath_spec (naming : Naming) (path : Path) :
    (∃ suffix, (ofPath naming path).suffix? naming = some suffix ∧
        Text.hasEnd suffix (path.fileName?.getD "") = true) ∨
      ofPath naming path = other ∧
        ∀ suffix ∈ naming.partSuffixes, Text.hasEnd suffix (path.fileName?.getD "") = false := by
  unfold ofPath
  dsimp only
  split
  · next ends => exact .inl ⟨_, rfl, ends⟩
  · split
    · next ends => exact .inl ⟨_, rfl, ends⟩
    · split
      · next ends => exact .inl ⟨_, rfl, ends⟩
      · exact .inr ⟨rfl, by simp_all [Naming.partSuffixes]⟩

theorem hasEnd_getD (nonempty : suffix ≠ "") (file : Option String) :
    Text.hasEnd suffix (file.getD "") = file.any (Text.hasEnd suffix) := by
  cases file with
  | some name => rfl
  | none =>
    rw [Option.getD_none, Option.any_none, Bool.eq_false_iff]
    intro ends
    exact nonempty (String.toList_eq_nil_iff.1
      (List.suffix_nil.1 (List.isSuffixOf_iff_suffix.1 ends)))

theorem ofPath_eq_iff (apart : naming.SuffixesApart) (told : part.suffix? naming = some suffix)
    (path : Path) :
    ofPath naming path = part ↔ path.fileName?.any (Text.hasEnd suffix) = true := by
  rw [← hasEnd_getD (suffix_ne_empty apart told)]
  rcases ofPath_spec naming path with ⟨own, ownTold, ownEnds⟩ | ⟨noPart, noEnds⟩
  · constructor
    · rintro rfl
      cases ownTold.symm.trans told
      exact ownEnds
    · exact eq_of_hasEnd apart ownTold told ownEnds
  · rw [noPart, noEnds suffix (mem_partSuffixes told)]
    refine iff_of_false ?_ (by decide)
    rintro rfl
    cases told

theorem ofPath_eq_pipeline_iff (apart : naming.SuffixesApart) (path : Path) :
    ofPath naming path = pipeline ↔
      path.fileName?.any (Text.hasEnd naming.effectsSuffix) = true :=
  ofPath_eq_iff apart rfl path

end StorePart

namespace Store

open CreatorMigration.Path

/-! ## How a unit is picked -/

/-- How the path of a unit comes to be picked for a directory and a suffix. -/
inductive PickedAs (directory : Path) (suffix : String) (path : Path) : Prop where
  /-- The unit lies in the directory, and its name has the suffix. -/
  | inside (parent : path.parent? = some directory)
      (ends : path.fileName?.any (Text.hasEnd suffix) = true)
  /-- A suffix of dots behind a directory without a name leads to another path without a name. -/
  | unnamed (dots : suffix = "." ∨ suffix = "..") (directoryUnnamed : directory.fileName? = none)
      (unnamed : path.fileName? = none)
      (sameRoot : Component.root ∈ path.components ↔ Component.root ∈ directory.components)

variable {project : Project} {directory : Path} {suffix : String}

theorem hasEnd_append (front : String) : Text.hasEnd suffix (front ++ suffix) = true := by
  simp [Text.hasEnd]

/-- Dots change nothing but the bottom of a stack, and leave it below the root or not. -/
theorem foldl_push_dots {bottom : List Component} (bottomMember : bottom ∈ bottoms)
    (dots : suffix = "." ∨ suffix = "..") :
    (Component.ofSegment? suffix).toList.foldl push bottom ∈ bottoms ∧
      (Component.root ∈ (Component.ofSegment? suffix).toList.foldl push bottom ↔
        Component.root ∈ bottom) := by
  simp only [bottoms, List.mem_cons, List.not_mem_nil, or_false] at bottomMember
  rcases bottomMember with rfl | rfl | rfl | rfl <;> rcases dots with rfl | rfl <;> decide

theorem slash_notMem_conventional (directory : Path) (slashFree : '/' ∉ suffix.toList) :
    '/' ∉ (directory.fileName?.getD "" ++ suffix).toList := by
  cases named : directory.fileName? with
  | some name => exact ((isSegment_of_fileName? named).append slashFree).2.2.2
  | none => rwa [Option.getD_none, String.empty_append]

/-- The name of a directory with a suffix is a name, unless there is no name and the suffix is made
of dots. -/
theorem ofSegment?_conventional (directory : Path) (nonempty : suffix ≠ "")
    (slashFree : '/' ∉ suffix.toList) :
    Component.ofSegment? (directory.fileName?.getD "" ++ suffix) =
        some (.name (directory.fileName?.getD "" ++ suffix)) ∨
      directory.fileName? = none ∧ (suffix = "." ∨ suffix = "..") := by
  cases named : directory.fileName? with
  | some name =>
    exact .inl (Component.ofSegment?_text ((isSegment_of_fileName? named).append slashFree))
  | none =>
    rw [Option.getD_none, String.empty_append]
    by_cases dots : suffix = "." ∨ suffix = ".."
    · exact .inr ⟨rfl, dots⟩
    · obtain ⟨notCurrent, notParent⟩ := not_or.1 dots
      exact .inl (by simp [Component.ofSegment?, nonempty, notCurrent, notParent])

theorem pickedAs_conventional (normal : directory.normalize = directory)
    (nonempty : suffix ≠ "") (slashFree : '/' ∉ suffix.toList) {path : Path}
    (pathNormal : path.normalize.components = path.components)
    (same : path.components =
      (directory.under ⟨directory.fileName?.getD "" ++ suffix⟩).normalize.components) :
    PickedAs directory suffix path := by
  have directoryNormal := congrArg components normal
  have walked := reverse_components_normalize_under directoryNormal
    (slash_notMem_conventional directory slashFree)
  rw [← same] at walked
  rcases ofSegment?_conventional directory nonempty slashFree with read | ⟨unnamed, dots⟩
  · rw [read, Option.toList_some, List.foldl_cons, push_name, List.foldl_nil,
      List.reverse_eq_iff, List.reverse_cons, List.reverse_reverse] at walked
    obtain ⟨parent, named⟩ := parent?_of_concat walked (ofComponents_of_normalize normal)
    refine .inside parent ?_
    rw [named]
    exact hasEnd_append _
  · rw [unnamed, Option.getD_none, String.empty_append] at walked
    have bottom := (fileName?_eq_none_iff directoryNormal).1 unnamed
    obtain ⟨pathBottom, sameRoot⟩ := foldl_push_dots bottom dots
    rw [← walked] at pathBottom sameRoot
    rw [List.mem_reverse, List.mem_reverse] at sameRoot
    exact .unnamed dots unnamed ((fileName?_eq_none_iff pathNormal).2 pathBottom) sameRoot

theorem pickedAs_of_pick (normal : project.HasNormalPaths)
    (leaf : directory ∈ project.leafDirectories) (nonempty : suffix ≠ "")
    (slashFree : '/' ∉ suffix.toList) {unit : SourceUnit}
    (found : project.unit? (pick project directory (directory.fileName?.getD "") suffix) =
      some unit) :
    PickedAs directory suffix unit.path := by
  have directoryNormal := Project.normalize_of_mem_leafDirectories normal leaf
  have conventional (named : project.unit? (directory.under
      ⟨directory.fileName?.getD "" ++ suffix⟩) = some unit) :
      PickedAs directory suffix unit.path := by
    obtain ⟨member, same⟩ := project.unit?_eq_some_iff.1 named
    exact pickedAs_conventional directoryNormal nonempty slashFree
      (normal unit.path (List.mem_map_of_mem member)) (Path.beq_iff.1 same)
  unfold pick at found
  dsimp only at found
  split at found
  · exact conventional found
  · split at found
    · next only single =>
      -- the only unit with the suffix is taken, whatever it is called in front of it
      have member : only ∈ [only] := List.mem_singleton_self only
      rw [← single, List.mem_filter, Project.mem_pathsIn_iff normal leaf] at member
      obtain ⟨⟨onlyMember, parent⟩, ends⟩ := member
      rw [Project.path_eq_of_unit? normal onlyMember found]
      exact .inside parent ends
    · exact conventional found

/-! ## Stores that share no unit -/

/-- The unit plays a part in the store. -/
def HasPart (project : Project) (store : Store) (unit : SourceUnit) : StorePart → Prop
  | .declaration => project.unit? store.declaration = some unit
  | .reducer => project.unit? store.reducer = some unit
  | .pipeline => ∃ path ∈ store.pipelines, project.unit? path = some unit
  | .other => False

/-- The stores that are found lie beside each other, and each unit plays one part in one of them.
The units that are considered lie where they play it. -/
structure AssignsParts (naming : Naming) (project : Project) (considered : SourceUnit → Prop) :
    Prop where
  /-- None of two directories is the other one or lies in it. -/
  apart : (discover naming project).Pairwise fun left right =>
    left.directory.isUnder right.directory = false ∧
      right.directory.isUnder left.directory = false
  once : ∀ left ∈ discover naming project, ∀ right ∈ discover naming project,
    ∀ unit leftPart rightPart, left.HasPart project unit leftPart →
      right.HasPart project unit rightPart → left = right ∧ leftPart = rightPart
  /-- Units lie directly in the directories of their stores and play the parts that their paths
  tell. -/
  placed : ∀ store ∈ discover naming project, ∀ unit part, store.HasPart project unit part →
    considered unit →
      unit.path.parent? = some store.directory ∧ StorePart.ofPath naming unit.path = part
  /-- No unit with the suffix of effects is left out. -/
  complete : ∀ store ∈ discover naming project, ∀ unit ∈ project.units,
    unit.path.parent? = some store.directory →
      unit.path.fileName?.any (Text.hasEnd naming.effectsSuffix) = true →
        unit.path ∈ store.pipelines

/-! ## Directories that are told apart -/

/-- Of two directories without a name that are both below the root or not, one is in the other. -/
theorem isUnder_of_unnamed {left right : Path} (leftBottom : left.components.reverse ∈ bottoms)
    (rightBottom : right.components.reverse ∈ bottoms)
    (sameRoot : Component.root ∈ left.components ↔ Component.root ∈ right.components) :
    right.isUnder left = true ∨ left.isUnder right = true := by
  have nested : ∀ first ∈ bottoms, ∀ second ∈ bottoms,
      (Component.root ∈ first ↔ Component.root ∈ second) →
        first.reverse.isPrefixOf second.reverse = true ∨
          second.reverse.isPrefixOf first.reverse = true := by
    decide
  have found := nested _ leftBottom _ rightBottom
  simp only [List.mem_reverse, List.reverse_reverse] at found
  exact found sameRoot

variable {naming : Naming} {store : Store} {unit : SourceUnit} {part : StorePart}

theorem mem_discover_iff :
    store ∈ discover naming project ↔
      store = ofDirectory naming project store.directory ∧
        store.directory ∈ project.leafDirectories ∧
        liesInStore naming store.directory = true ∧ hasAnyUnit project store = true := by
  rw [discover, List.mem_filter, List.mem_map]
  constructor
  · rintro ⟨⟨directory, member, rfl⟩, hasUnit⟩
    obtain ⟨leaf, inStore⟩ := List.mem_filter.1 member
    exact ⟨rfl, leaf, inStore, hasUnit⟩
  · rintro ⟨made, leaf, inStore, hasUnit⟩
    exact ⟨⟨store.directory, List.mem_filter.2 ⟨leaf, inStore⟩, made.symm⟩, hasUnit⟩

/-- No unit is listed twice among the pipelines of a store. -/
theorem nodup_pipelines (member : store ∈ discover naming project) : store.pipelines.Nodup := by
  rw [(mem_discover_iff.1 member).1]
  exact (project.nodup_paths.filter _).filter _

section

variable (suffixes : naming.SuffixesApart) (normal : project.HasNormalPaths)

include suffixes normal

theorem pickedAs_of_hasPart (member : store ∈ discover naming project)
    (plays : store.HasPart project unit part) :
    ∃ suffix, part.suffix? naming = some suffix ∧
      PickedAs store.directory suffix unit.path := by
  obtain ⟨made, leaf, _⟩ := mem_discover_iff.1 member
  have pickedBy (part : StorePart) {suffix : String} (told : part.suffix? naming = some suffix)
      (found : project.unit? (pick project store.directory
        (store.directory.fileName?.getD "") suffix) = some unit) :
      PickedAs store.directory suffix unit.path :=
    pickedAs_of_pick normal leaf (StorePart.suffix_ne_empty suffixes told)
      (suffixes.slashFree suffix (StorePart.mem_partSuffixes told)) found
  -- declarations and reducers are picked by suffix, pipelines are all units with theirs
  cases part with
  | declaration =>
    rw [made] at plays
    exact ⟨_, rfl, pickedBy .declaration rfl plays⟩
  | reducer =>
    rw [made] at plays
    exact ⟨_, rfl, pickedBy .reducer rfl plays⟩
  | pipeline =>
    obtain ⟨path, pathMember, found⟩ := plays
    rw [made] at pathMember
    obtain ⟨inDirectory, tells⟩ := List.mem_filter.1 pathMember
    obtain ⟨loaded, parent⟩ := (Project.mem_pathsIn_iff normal leaf).1 inDirectory
    rw [Project.path_eq_of_unit? normal loaded found]
    exact ⟨_, rfl, .inside parent
      ((StorePart.ofPath_eq_pipeline_iff suffixes path).1 (of_decide_eq_true tells))⟩
  | other => exact plays.elim

/-- What is picked for two directories is picked for one of them only, and for one part. -/
theorem eq_of_pickedAs {left right path : Path} {leftPart rightPart : StorePart}
    {leftSuffix rightSuffix : String} (leftLeaf : left ∈ project.leafDirectories)
    (rightLeaf : right ∈ project.leafDirectories)
    (leftTold : leftPart.suffix? naming = some leftSuffix)
    (rightTold : rightPart.suffix? naming = some rightSuffix)
    (leftPicked : PickedAs left leftSuffix path) (rightPicked : PickedAs right rightSuffix path) :
    left = right ∧ leftPart = rightPart := by
  cases leftPicked with
  | inside leftParent leftEnds =>
    cases rightPicked with
    | inside rightParent rightEnds =>
      refine ⟨Option.some.inj (leftParent.symm.trans rightParent), ?_⟩
      rw [← (StorePart.ofPath_eq_iff suffixes leftTold path).2 leftEnds]
      exact (StorePart.ofPath_eq_iff suffixes rightTold path).2 rightEnds
    | unnamed _ _ unnamed _ =>
      rw [unnamed] at leftEnds
      cases leftEnds
  | unnamed leftDots leftUnnamed unnamed leftRoot =>
    cases rightPicked with
    | inside _ rightEnds =>
      rw [unnamed] at rightEnds
      cases rightEnds
    | unnamed rightDots rightUnnamed _ rightRoot =>
      constructor
      · have bottom {directory : Path} (leaf : directory ∈ project.leafDirectories)
            (unnamed : directory.fileName? = none) : directory.components.reverse ∈ bottoms :=
          (fileName?_eq_none_iff (congrArg components
            (Project.normalize_of_mem_leafDirectories normal leaf))).1 unnamed
        rcases isUnder_of_unnamed (bottom leftLeaf leftUnnamed) (bottom rightLeaf rightUnnamed)
          (leftRoot.symm.trans rightRoot) with under | under
        · exact (Project.eq_of_isUnder_leaf leftLeaf rightLeaf under).symm
        · exact Project.eq_of_isUnder_leaf rightLeaf leftLeaf under
      · -- one dot ends two dots, so only one of the suffixes can be made of dots
        have dotsEnd : Text.hasEnd leftSuffix ".." = true ∧ Text.hasEnd rightSuffix ".." = true := by
          rcases leftDots with rfl | rfl <;> rcases rightDots with rfl | rfl <;> decide
        exact StorePart.eq_of_hasEnd suffixes leftTold rightTold dotsEnd.1 dotsEnd.2

end

/-! ## Which units play parts -/

/-- The path of the unit ends in a file name, or else no suffix can be read as a directory. -/
def IsNamed (naming : Naming) (unit : SourceUnit) : Prop :=
  unit.path.fileName? = none → "." ∉ naming.partSuffixes ∧ ".." ∉ naming.partSuffixes

/-- With suffixes that are apart the stores of a project share no unit, and each unit with a file name
lies in the directory of its store and plays the part that the name tells. -/
theorem assignsParts (suffixes : naming.SuffixesApart) (normal : project.HasNormalPaths) :
    AssignsParts naming project (IsNamed naming) where
  apart := by
    refine List.Pairwise.filter _ (List.pairwise_map.2 ?_)
    exact project.pairwise_apart_leafDirectories.filter _
  once := by
    intro left leftMember right rightMember unit leftPart rightPart leftPlays rightPlays
    obtain ⟨leftSuffix, leftTold, leftPicked⟩ :=
      pickedAs_of_hasPart suffixes normal leftMember leftPlays
    obtain ⟨rightSuffix, rightTold, rightPicked⟩ :=
      pickedAs_of_hasPart suffixes normal rightMember rightPlays
    obtain ⟨leftMade, leftLeaf, _⟩ := mem_discover_iff.1 leftMember
    obtain ⟨rightMade, rightLeaf, _⟩ := mem_discover_iff.1 rightMember
    obtain ⟨sameDirectory, samePart⟩ := eq_of_pickedAs suffixes normal leftLeaf rightLeaf leftTold
      rightTold leftPicked rightPicked
    exact ⟨by rw [leftMade, rightMade, sameDirectory], samePart⟩
  placed := by
    intro store member unit part plays isNamed
    obtain ⟨suffix, told, picked⟩ := pickedAs_of_hasPart suffixes normal member plays
    cases picked with
    | inside parent ends => exact ⟨parent, (StorePart.ofPath_eq_iff suffixes told unit.path).2 ends⟩
    | unnamed dots _ unnamed _ =>
      obtain ⟨noDot, noDots⟩ := isNamed unnamed
      have listed := StorePart.mem_partSuffixes told
      rcases dots with rfl | rfl
      · exact absurd listed noDot
      · exact absurd listed noDots
  complete := by
    intro store member unit unitMember parent ends
    obtain ⟨made, leaf, _⟩ := mem_discover_iff.1 member
    rw [made]
    refine List.mem_filter.2 ⟨(Project.mem_pathsIn_iff normal leaf).2
      ⟨List.mem_map_of_mem unitMember, parent⟩, ?_⟩
    exact decide_eq_true ((StorePart.ofPath_eq_pipeline_iff suffixes unit.path).2 ends)

/-- Two stores, one without a unit of conventional name. -/
def twoStores : Project :=
  Project.ofSources ⟨""⟩ {}
    [(⟨"store/a/a.actions.ts"⟩, ""), (⟨"store/a/x.effects.ts"⟩, ""), (⟨"store/b/y.reducer.ts"⟩, "")]

theorem assignsParts_twoStores :
    ({} : Naming).SuffixesApart ∧ twoStores.HasNormalPaths ∧
      AssignsParts {} twoStores (IsNamed {}) ∧
      (discover {} twoStores).map (fun store => store.reducer.text) =
        ["store/a/a.reducer.ts", "store/b/y.reducer.ts"] := by
  have suffixes : ({} : Naming).SuffixesApart := ⟨by decide, by decide⟩
  have normal : twoStores.HasNormalPaths := Project.hasNormalPaths_ofSources _ _ _
  exact ⟨suffixes, normal, assignsParts suffixes normal, by decide +kernel⟩

/-- A suffix that leads from a directory to itself. -/
def dotNaming : Naming := { actionsSuffix := ".", storeMarker := "/" }

/-- A unit at the empty path, which is no path of a file. -/
def unitAtEmptyPath : Project := Project.ofSources ⟨""⟩ {} [(⟨""⟩, ""), (⟨"x.ts"⟩, "")]

/-- The unit at the empty path is picked for the directory that it is, and lies in none. -/
theorem not_assignsParts_unitAtEmptyPath :
    dotNaming.SuffixesApart ∧ unitAtEmptyPath.HasNormalPaths ∧
      ¬ AssignsParts dotNaming unitAtEmptyPath fun _ => True := by
  refine ⟨⟨by decide, by decide⟩, Project.hasNormalPaths_ofSources _ _ _, fun assigns => ?_⟩
  have picked : ∃ store ∈ discover dotNaming unitAtEmptyPath,
      (unitAtEmptyPath.unit? store.declaration).any (·.path.parent?.isNone) = true := by
    decide +kernel
  obtain ⟨store, member, outside⟩ := picked
  obtain ⟨unit, found, noParent⟩ := (Option.any_eq_true _ _).1 outside
  have placed := (assigns.placed store member unit .declaration found trivial).1
  rw [placed] at noParent
  cases noParent

end Store

end CreatorMigration
