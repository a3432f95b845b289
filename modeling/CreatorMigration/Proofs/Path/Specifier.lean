import CreatorMigration.Path.Relative
import CreatorMigration.Project.Resolution
import CreatorMigration.Proofs.Path.Normal

/-! # Relative specifiers lead to their targets

`Path.relativeSpecifier` walks from the directory of one unit to another unit, and
`Resolution.resolve` follows such a walk. `Resolution.resolve_relativeSpecifier` says when the walk
ends where it was meant to.
-/

namespace CreatorMigration

/-! ## Walking along a text -/

namespace Path

/-- The stack that is left by walking along the segments of a text. -/
def walk (stack : List Component) (text : String) : List Component :=
  ((Text.splitOn '/' text).filterMap Component.ofSegment?).foldl push stack

theorem walk_slash (stack : List Component) (front back : String) :
    walk stack (front ++ "/" ++ back) = walk (walk stack front) back := by
  rw [walk, Text.splitOn_slash, List.filterMap_append, List.foldl_append]
  rfl

/-- Where the walk along a text starts. -/
def startOf (text : String) : List Component :=
  if Text.hasStart "/" text then [.root] else []

theorem startOf_append {front back : String} (nonempty : front ≠ "") :
    startOf (front ++ back) = startOf front := by
  cases chars : front.toList with
  | nil => exact absurd (String.toList_eq_nil_iff.1 chars) nonempty
  | cons c rest => simp [startOf, Text.hasStart, chars, List.isPrefixOf]

/-- The segments behind the first one of a path that is read as its components. -/
theorem foldl_push_lead (first : String) (rest : List Component) :
    (((if first = "." then [Component.current] else (Component.ofSegment? first).toList) ++
        rest).foldl push []) =
      ((Component.ofSegment? first).toList ++ rest).foldl push [] := by
  split
  · next dot =>
    subst dot
    rfl
  · rfl

theorem foldl_push_components (path : Path) :
    path.components.foldl push [] = walk (startOf path.text) path.text := by
  rw [walk, components]
  cases split : Text.splitOn '/' path.text with
  | nil => simp [Text.splitOn, List.splitOn_ne_nil] at split
  | cons first rest =>
    have filtered : (first :: rest).filterMap Component.ofSegment? =
        (Component.ofSegment? first).toList ++ rest.filterMap Component.ofSegment? := by
      rw [List.filterMap_cons]
      cases Component.ofSegment? first <;> rfl
    rw [filtered]
    dsimp only
    -- the first segment is empty for the empty text and behind a slash in front, and only there
    cases chars : path.text.toList with
    | nil =>
      rw [Text.splitOn, chars] at split
      simp only [List.splitOn_nil, List.map_cons, List.map_nil, List.cons.injEq] at split
      obtain ⟨rfl, rfl⟩ := split
      have start : startOf path.text = [] := by simp [startOf, Text.hasStart, chars]
      rw [start]
      rfl
    | cons c others =>
      rw [Text.splitOn, chars, List.splitOn_cons_eq_if_modifyHead] at split
      by_cases slash : c = '/'
      · subst slash
        simp only [BEq.rfl, if_true, List.map_cons, List.cons.injEq] at split
        obtain ⟨rfl, rfl⟩ := split
        have start : startOf path.text = [.root] := by
          simp [startOf, Text.hasStart, chars]
        rw [start]
        simp [push, Component.ofSegment?]
      · have start : startOf path.text = [] := by
          simp [startOf, Text.hasStart, chars, Ne.symm slash]
        have firstNonempty : first ≠ "" := by
          simp only [beq_iff_eq, slash, if_false] at split
          cases pieces : others.splitOn '/' with
          | nil => exact absurd pieces (List.splitOn_ne_nil _ _)
          | cons piece remaining =>
            rw [pieces] at split
            simp only [List.modifyHead_cons, List.map_cons, List.cons.injEq] at split
            rw [← split.1]
            simp
        rw [start, if_neg firstNonempty, foldl_push_lead]

/-- A first segment with something in it is not read as the root. -/
theorem head?_lead_ne_root {first : String} (nonempty : first ≠ "") (rest : List Component) :
    ((if first = "." then [Component.current] else (Component.ofSegment? first).toList) ++
      rest).head? ≠ some .root := by
  by_cases dot : first = "."
  · simp [dot]
  · by_cases parent : first = ".." <;> simp [nonempty, dot, parent, Component.ofSegment?]

/-- A path is absolute exactly if it starts with a slash. -/
theorem isAbsolute_eq_hasStart (path : Path) : path.isAbsolute = Text.hasStart "/" path.text := by
  have slash : "/".toList = ['/'] := by decide
  rw [isAbsolute, components, Text.splitOn, Text.hasStart, slash]
  cases chars : path.text.toList with
  | nil => rfl
  | cons c others =>
    rw [List.splitOn_cons_eq_if_modifyHead]
    cases pieces : others.splitOn '/' with
    | nil => exact absurd pieces (List.splitOn_ne_nil _ _)
    | cons piece rest =>
      by_cases rooted : c = '/'
      · simp [rooted]
      · -- the first segment starts with the first character, so it is not empty
        have nonempty : String.ofList (c :: piece) ≠ "" := by simp
        have apart : ['/'].isPrefixOf (c :: others) = false := by
          simp [List.isPrefixOf, Ne.symm rooted]
        rw [apart, if_neg (by simpa using rooted), List.modifyHead_cons, List.map_cons]
        dsimp only
        rw [if_neg nonempty, beq_eq_false_iff_ne]
        exact head?_lead_ne_root nonempty _

theorem isAbsolute_of_dot {specifier : String} (dotted : Text.hasStart "." specifier = true) :
    (⟨specifier⟩ : Path).isAbsolute = false := by
  rw [isAbsolute_eq_hasStart]
  cases chars : specifier.toList with
  | nil => simp [Text.hasStart, chars]
  | cons c rest =>
    have dot : '.' = c := by simpa [Text.hasStart, chars, List.isPrefixOf] using dotted
    subst dot
    simp [Text.hasStart, chars, List.isPrefixOf]

theorem startOf_of_relative {path : Path} (relative : path.isAbsolute = false) :
    startOf path.text = [] := by
  rw [startOf, ← isAbsolute_eq_hasStart, relative, if_neg (by decide)]

theorem walk_empty (stack : List Component) : walk stack "" = stack := by
  rw [walk, Text.splitOn_empty]
  rfl

/-- A directory followed by a relative path is walked like the one and then the other. -/
theorem foldl_push_under_of_relative (base : Path) {path : Path}
    (relative : path.isAbsolute = false) :
    (base.under path).components.foldl push [] =
      walk (base.components.foldl push []) path.text := by
  rw [foldl_push_components base, under, relative, if_neg (by decide)]
  split
  · next short =>
    rw [foldl_push_components]
    by_cases empty : base.text = ""
    · rw [empty, String.empty_append, startOf_of_relative relative]
      rfl
    · obtain ⟨front, ends⟩ := Text.exists_of_hasEnd (short.resolve_left empty)
      -- a slash at the end leads nowhere, so it does not matter that none is put in
      have baseWalk (stack : List Component) : walk stack base.text = walk stack front := by
        have padded : base.text = front ++ "/" ++ "" := by rw [ends, String.append_empty]
        rw [padded, walk_slash, walk_empty]
      rw [startOf_append empty, baseWalk, ends, walk_slash]
  · next long =>
    have nonempty : base.text ≠ "" := fun empty => long (.inl empty)
    rw [foldl_push_components, walk_slash, String.append_assoc, startOf_append nonempty]

/-- A directory followed by one more segment. -/
theorem reverse_components_normalize_under {directory : Path}
    (normal : directory.normalize.components = directory.components) {text : String}
    (slashFree : '/' ∉ text.toList) :
    (directory.under ⟨text⟩).normalize.components.reverse =
      (Component.ofSegment? text).toList.foldl push directory.components.reverse := by
  have single : Text.splitOn '/' text = [text] := by
    have joined := Text.splitOn_join (List.cons_ne_nil text []) (by simpa using slashFree)
    rwa [Text.join, String.intercalate_singleton] at joined
  have relative : (⟨text⟩ : Path).isAbsolute = false := by
    rw [isAbsolute_eq_hasStart, Text.hasStart, Bool.eq_false_iff]
    intro rooted
    exact slashFree ((List.isPrefixOf_iff_prefix.1 rooted).subset (by decide))
  rw [components_normalize, normalComponents, List.reverse_reverse,
    foldl_push_under_of_relative directory relative, foldl_push_of_normal normal, walk, single,
    List.filterMap_cons]
  cases Component.ofSegment? text <;> rfl

theorem foldl_push_under (base : Path) {specifier : String}
    (dotted : Text.hasStart "." specifier = true) :
    (base.under ⟨specifier⟩).components.foldl push [] =
      walk (base.components.foldl push []) specifier :=
  foldl_push_under_of_relative base (isAbsolute_of_dot dotted)

/-! ## Up to a shared directory and down again -/

/-- Whether all components are names that can be written and read. -/
def AreNames (parts : List Component) : Prop :=
  ∀ component ∈ parts, component.IsSegment ∧ component ≠ .parent

theorem sharedCount_spec (left right : List Component) :
    ∃ shared lefts rights, left = shared ++ lefts ∧ right = shared ++ rights ∧
      sharedCount left right = shared.length := by
  fun_induction sharedCount left right with
  | case1 lefts first rights ih =>
    obtain ⟨shared, lefts, rights, rfl, rfl, count⟩ := ih
    exact ⟨first :: shared, lefts, rights, rfl, rfl, by rw [count, List.length_cons]⟩
  | case2 left lefts right rights different =>
    exact ⟨[], _, _, rfl, rfl, rfl⟩
  | case3 lefts rights _ => exact ⟨[], lefts, rights, rfl, rfl, rfl⟩

theorem foldl_push_parents {names : List Component} (plain : AreNames names)
    (stack : List Component) :
    (List.replicate names.length Component.parent).foldl push (names ++ stack) = stack := by
  induction names with
  | nil => rfl
  | cons first rest inductionHypothesis =>
    obtain ⟨segment, notParent⟩ := plain first List.mem_cons_self
    have pushed : push (first :: (rest ++ stack)) .parent = rest ++ stack := by
      cases first with
      | root | current => exact segment.elim
      | parent => exact absurd rfl notParent
      | name text => rfl
    rw [List.length_cons, List.replicate_succ, List.foldl_cons, List.cons_append, pushed]
    exact inductionHypothesis fun component member => plain component (List.mem_cons_of_mem _ member)

theorem foldl_push_names {names : List Component} (plain : AreNames names)
    (stack : List Component) : names.foldl push stack = names.reverse ++ stack := by
  induction names generalizing stack with
  | nil => rfl
  | cons first rest inductionHypothesis =>
    obtain ⟨segment, notParent⟩ := plain first List.mem_cons_self
    have pushed : push stack first = first :: stack := by
      cases first with
      | root | current => exact segment.elim
      | parent => exact absurd rfl notParent
      | name text => exact push_name stack text
    rw [List.foldl_cons, pushed, inductionHypothesis fun component member =>
      plain component (List.mem_cons_of_mem _ member), List.reverse_cons, List.append_assoc,
      List.singleton_append]

/-- What stands behind shared components in a normal form: names, and a `..` in front of them only
at the bottom. -/
inductive StandsOn (shared : List Component) : List Component → Prop where
  | names {names : List Component} (plain : AreNames names) : StandsOn shared names
  | parent {names : List Component} (bottom : shared = [] ∨ shared = [.root])
      (plain : AreNames names) : StandsOn shared (.parent :: names)

namespace StandsOn

variable {shared lefts rights : List Component}

/-- As many steps go up as there are components above the shared ones. -/
theorem foldl_push_up (stands : StandsOn shared lefts) :
    (List.replicate lefts.length Component.parent).foldl push (shared ++ lefts).reverse =
      shared.reverse := by
  have up {names : List Component} (plain : AreNames names) (stack : List Component) :
      (List.replicate names.length Component.parent).foldl push (names.reverse ++ stack) =
        stack := by
    have reversed : AreNames names.reverse := fun component member =>
      plain component (List.mem_reverse.1 member)
    rw [← List.length_reverse]
    exact foldl_push_parents reversed stack
  rw [List.reverse_append]
  cases stands with
  | names plain => exact up plain _
  | parent bottom plain =>
    rw [List.length_cons, List.replicate_succ', List.foldl_append, List.reverse_cons,
      List.append_assoc, up plain]
    rcases bottom with rfl | rfl <;> rfl

theorem foldl_push_down (stands : StandsOn shared rights) :
    rights.foldl push shared.reverse = (shared ++ rights).reverse := by
  cases stands with
  | names plain => rw [foldl_push_names plain, List.reverse_append]
  | parent bottom plain =>
    have pushed : push shared.reverse .parent = .parent :: shared.reverse := by
      rcases bottom with rfl | rfl <;> rfl
    rw [List.foldl_cons, pushed, foldl_push_names plain]
    simp

theorem isSegment (stands : StandsOn shared rights) {component : Component}
    (member : component ∈ rights) : component.IsSegment := by
  cases stands with
  | names plain => exact (plain component member).1
  | parent _ plain =>
    rcases List.mem_cons.1 member with rfl | member
    · trivial
    · exact (plain component member).1

end StandsOn

/-- The components of a walk up some directories and down some others. -/
def stepsBetween (lefts rights : List Component) : List Component :=
  List.replicate lefts.length .parent ++ rights

theorem isSegment_of_mem_stepsBetween {shared lefts rights : List Component}
    (stands : StandsOn shared rights) {component : Component}
    (member : component ∈ stepsBetween lefts rights) : component.IsSegment := by
  rcases List.mem_append.1 member with member | member
  · rw [List.eq_of_mem_replicate member]
    trivial
  · exact stands.isSegment member

theorem foldl_push_stepsBetween {shared lefts rights : List Component}
    (leftsStand : StandsOn shared lefts) (rightsStand : StandsOn shared rights) :
    (stepsBetween lefts rights).foldl push (shared ++ lefts).reverse =
      (shared ++ rights).reverse := by
  rw [stepsBetween, List.foldl_append, leftsStand.foldl_push_up, rightsStand.foldl_push_down]

/-! ## The text of a specifier -/

/-- A walk as a specifier, which starts with a dot. -/
def dotted (joined : String) : String :=
  if Text.hasStart ".." joined then joined else if joined = "" then "." else "./" ++ joined

theorem hasStart_dotted (joined : String) : Text.hasStart "." (dotted joined) = true := by
  unfold dotted
  split
  · next twice =>
    have listed : "..".toList = ['.', '.'] := by decide
    obtain ⟨rest, chars⟩ := List.isPrefixOf_iff_prefix.1 twice
    rw [Text.hasStart, ← chars, listed]
    rfl
  · split
    · decide
    · rw [Text.hasStart, String.toList_append]
      rfl

/-- A specifier is read as the walk that it was written for. -/
theorem walk_dotted {steps : List Component} (segments : ∀ step ∈ steps, step.IsSegment)
    (stack : List Component) :
    walk stack (dotted (Text.join "/" (steps.map Component.text))) = steps.foldl push stack := by
  have readBack := Component.filterMap_ofSegment?_text segments
  cases steps with
  | nil => rfl
  | cons first rest =>
    have slashFree : ∀ text ∈ (first :: rest).map Component.text, '/' ∉ text.toList := by
      intro text member
      obtain ⟨step, stepMember, rfl⟩ := List.mem_map.1 member
      exact Component.slash_notMem_text (segments step stepMember)
    have split := Text.splitOn_join (by simp) slashFree
    unfold dotted
    split
    · rw [walk, split, readBack]
    · split
      -- the text of a walk with a first step is not empty
      · next empty =>
        rw [empty, Text.splitOn_empty, List.map_cons, List.cons.injEq] at split
        exact absurd split.1.symm
          (Component.text_ne_empty (segments first List.mem_cons_self)).1
      · have pieces : "./" ++ Text.join "/" ((first :: rest).map Component.text) =
            "." ++ "/" ++ Text.join "/" ((first :: rest).map Component.text) := rfl
        rw [pieces, walk_slash, walk, walk, split, readBack]
        rfl

theorem relativeSpecifier_eq {importer target : Path} {here shared lefts rights : List Component}
    (hereRead : (importer.parent?.map components).getD [] = here)
    (hereSplit : here = shared ++ lefts) (thereSplit : specifierTarget target = shared ++ rights)
    (count : sharedCount here (specifierTarget target) = shared.length) :
    importer.relativeSpecifier target =
      dotted (Text.join "/" ((stepsBetween lefts rights).map Component.text)) := by
  have up : here.length - shared.length = lefts.length := by
    rw [hereSplit, List.length_append, Nat.add_sub_cancel_left]
  have down : (specifierTarget target).drop shared.length = rights := by
    rw [thereSplit, List.drop_left]
  unfold relativeSpecifier
  simp only [hereRead, count, up, down]
  rw [stepsBetween, List.map_append, List.map_replicate]
  rfl

/-- Walking from the directory of a unit by a relative specifier ends at the target. -/
theorem foldl_push_relativeSpecifier {importer target : Path}
    {here shared lefts rights : List Component}
    (hereRead : (importer.parent?.map components).getD [] = here)
    (hereSplit : here = shared ++ lefts) (thereSplit : specifierTarget target = shared ++ rights)
    (count : sharedCount here (specifierTarget target) = shared.length)
    (hereWalked : ((importer.parent?).getD ⟨""⟩).components.foldl push [] = here.reverse)
    (leftsStand : StandsOn shared lefts) (rightsStand : StandsOn shared rights) :
    (((importer.parent?).getD ⟨""⟩).under ⟨importer.relativeSpecifier target⟩).components.foldl
        push [] = (specifierTarget target).reverse := by
  rw [relativeSpecifier_eq hereRead hereSplit thereSplit count,
    foldl_push_under _ (hasStart_dotted _), hereWalked,
    walk_dotted fun step member => isSegment_of_mem_stepsBetween rightsStand member, hereSplit,
    foldl_push_stepsBetween leftsStand rightsStand, thereSplit]

/-! ## Units in one tree -/

/-- A file below a lead that normal forms can have, with names only in between. -/
structure IsFileAt (lead directory : List Component) (file : String) (path : Path) : Prop where
  lead_mem : lead.reverse ∈ bottoms
  plain : AreNames (directory ++ [.name file])
  components_eq : path.components = lead ++ directory ++ [.name file]

theorem normalStack_lead {lead names : List Component} (leads : lead.reverse ∈ bottoms)
    (plain : AreNames names) : NormalStack (lead ++ names).reverse := by
  refine ⟨names.reverse, lead.reverse, List.reverse_append, leads, ?_⟩
  exact fun component member => plain component (List.mem_reverse.1 member)

theorem components_ofComponents_lead {lead names : List Component}
    (leads : lead.reverse ∈ bottoms) (plain : AreNames names) :
    (ofComponents (lead ++ names)).components = lead ++ names := by
  have read := (normalStack_lead leads plain).components_ofComponents
  rwa [List.reverse_reverse] at read

namespace IsFileAt

variable {lead directory : List Component} {file : String} {path : Path}

theorem areNames_directory (isFile : IsFileAt lead directory file path) : AreNames directory :=
  fun component member => isFile.plain component (List.mem_append_left _ member)

theorem getLast?_components (isFile : IsFileAt lead directory file path) :
    path.components.getLast? = some (.name file) := by
  rw [isFile.components_eq, List.getLast?_concat]

theorem fileName?_eq (isFile : IsFileAt lead directory file path) :
    path.fileName? = some file := by
  rw [fileName?, isFile.getLast?_components]

theorem parent?_eq (isFile : IsFileAt lead directory file path) :
    path.parent? = some (ofComponents (lead ++ directory)) := by
  rw [parent?, isFile.getLast?_components, isFile.components_eq, List.dropLast_concat]

theorem components_parent (isFile : IsFileAt lead directory file path) :
    (ofComponents (lead ++ directory)).components = lead ++ directory :=
  components_ofComponents_lead isFile.lead_mem isFile.areNames_directory

theorem foldl_push_parent (isFile : IsFileAt lead directory file path) :
    ((path.parent?).getD ⟨""⟩).components.foldl push [] = (lead ++ directory).reverse := by
  have stack := (normalStack_lead isFile.lead_mem isFile.areNames_directory).foldl_push_reverse
  rw [List.reverse_reverse] at stack
  rw [isFile.parent?_eq, Option.getD_some, isFile.components_parent, stack]

end IsFileAt

theorem splitName_dotted {stem extension : String} (nonempty : stem ≠ "")
    (dotFree : '.' ∉ extension.toList) :
    splitName (stem ++ "." ++ extension) = (stem, some extension) := by
  have last : Text.afterLast '.' (stem ++ "." ++ extension) = extension := by
    rw [Text.afterLast_dotted, Text.afterLast_of_notMem dotFree]
  have length : (stem ++ "." ++ extension).length = stem.length + 1 + extension.length := by
    rw [← String.length_toList, Text.toList_dotted, List.length_append, List.length_cons,
      String.length_toList, String.length_toList]
    omega
  have positive : stem.length ≠ 0 := fun zero => nonempty <| by
    rw [← String.length_toList, List.length_eq_zero_iff] at zero
    exact String.toList_eq_nil_iff.1 zero
  unfold splitName
  simp only [last, length]
  have stemLength : stem.length + 1 + extension.length - extension.length - 1 =
      stem.toList.length := by
    rw [String.length_toList]
    omega
  rw [if_neg (by omega), stemLength, Text.toList_dotted, List.take_left, String.ofList_toList]

/-! ## What a unit is named by -/

theorem sharedCount_append (lead left right : List Component) :
    sharedCount (lead ++ left) (lead ++ right) = lead.length + sharedCount left right := by
  induction lead with
  | nil => simp
  | cons first rest inductionHypothesis =>
    rw [List.cons_append, List.cons_append, sharedCount, if_pos rfl, inductionHypothesis,
      List.length_cons]
    omega

/-- A unit of TypeScript whose name without the extension can be a name by itself. -/
structure IsModuleAt (lead directory : List Component) (stem : String) (path : Path) : Prop where
  isFile : IsFileAt lead directory (stem ++ ".ts") path
  stem_plain : (Component.name stem).IsSegment

namespace IsModuleAt

variable {lead directory : List Component} {stem : String} {path : Path}

theorem splitName_eq (isModule : IsModuleAt lead directory stem path) :
    splitName (stem ++ ".ts") = (stem, some "ts") := by
  have written : stem ++ ".ts" = stem ++ "." ++ "ts" := by
    rw [String.append_assoc]
    rfl
  rw [written, splitName_dotted isModule.stem_plain.1 (by decide)]

theorem extension?_eq (isModule : IsModuleAt lead directory stem path) :
    path.extension? = some "ts" := by
  rw [extension?, isModule.isFile.fileName?_eq, Option.bind_some, isModule.splitName_eq]

theorem plain (isModule : IsModuleAt lead directory stem path) :
    AreNames (directory ++ [.name stem]) := by
  intro component member
  rcases List.mem_append.1 member with member | member
  · exact isModule.isFile.areNames_directory component member
  · rw [List.mem_singleton.1 member]
    exact ⟨isModule.stem_plain, by simp⟩

theorem components_withoutExtension (isModule : IsModuleAt lead directory stem path) :
    path.withoutExtension.components = lead ++ (directory ++ [.name stem]) := by
  have stemRead : path.stem? = some stem := by
    rw [stem?, isModule.isFile.fileName?_eq, Option.map_some, isModule.splitName_eq]
  rw [withoutExtension, stemRead]
  dsimp only
  rw [isModule.isFile.components_eq, List.dropLast_concat, List.append_assoc,
    components_ofComponents_lead isModule.isFile.lead_mem isModule.plain]

/-- The names behind the lead by which a specifier names the unit. -/
def target (directory : List Component) (stem : String) : List Component :=
  if stem = "index" then directory else directory ++ [.name stem]

theorem areNames_target (isModule : IsModuleAt lead directory stem path) :
    AreNames (target directory stem) := by
  unfold target
  split
  · exact isModule.isFile.areNames_directory
  · exact isModule.plain

theorem specifierTarget_eq (isModule : IsModuleAt lead directory stem path) :
    specifierTarget path = lead ++ target directory stem := by
  have bare := isModule.components_withoutExtension
  have name : path.withoutExtension.fileName? = some stem := by
    rw [fileName?, bare, ← List.append_assoc, List.getLast?_concat]
  unfold specifierTarget target
  simp only [name, Option.some.injEq, bare]
  split
  · rw [← List.append_assoc, List.dropLast_concat]
  · rfl

end IsModuleAt

/-! ## From one unit to another -/

theorem sharedCount_names_parent {names : List Component} (plain : AreNames names)
    (others : List Component) :
    sharedCount names (.parent :: others) = 0 ∧ sharedCount (.parent :: others) names = 0 := by
  cases names with
  | nil => exact ⟨rfl, rfl⟩
  | cons first rest =>
    have notParent := (plain first List.mem_cons_self).2
    rw [sharedCount, sharedCount, if_neg notParent, if_neg (Ne.symm notParent)]
    exact ⟨rfl, rfl⟩

theorem lead_cases {lead : List Component} (leads : lead.reverse ∈ bottoms) :
    lead = [] ∨ lead = [.parent] ∨ lead = [.root] ∨ lead = [.root, .parent] := by
  simpa [bottoms, List.reverse_eq_iff] using leads

/-- What two normal forms share, and what stands behind that in each of them, if both or none of
them start from the root. -/
theorem exists_shared {hereLead thereLead here there : List Component}
    (hereLeads : hereLead.reverse ∈ bottoms) (thereLeads : thereLead.reverse ∈ bottoms)
    (sameRoot : Component.root ∈ hereLead ↔ Component.root ∈ thereLead)
    (herePlain : AreNames here) (therePlain : AreNames there) :
    ∃ shared lefts rights, hereLead ++ here = shared ++ lefts ∧
      thereLead ++ there = shared ++ rights ∧
      sharedCount (hereLead ++ here) (thereLead ++ there) = shared.length ∧
      StandsOn shared lefts ∧ StandsOn shared rights := by
  by_cases same : hereLead = thereLead
  · subst same
    obtain ⟨shared, lefts, rights, rfl, rfl, count⟩ := sharedCount_spec here there
    refine ⟨hereLead ++ shared, lefts, rights, (List.append_assoc ..).symm,
      (List.append_assoc ..).symm, ?_, .names fun component member => ?_,
      .names fun component member => ?_⟩
    · rw [sharedCount_append, count, List.length_append]
    · exact herePlain component (List.mem_append_right _ member)
    · exact therePlain component (List.mem_append_right _ member)
  · -- one of the leads has a `..` that the other one lacks, so nothing behind it is shared
    have hereBehind := sharedCount_names_parent herePlain
    have thereBehind := sharedCount_names_parent therePlain
    rcases lead_cases hereLeads with rfl | rfl | rfl | rfl <;>
      rcases lead_cases thereLeads with rfl | rfl | rfl | rfl <;>
        simp at same sameRoot
    · exact ⟨[], here, .parent :: there, rfl, rfl, (hereBehind _).1, .names herePlain,
        .parent (.inl rfl) therePlain⟩
    · exact ⟨[], .parent :: here, there, rfl, rfl, (thereBehind _).2,
        .parent (.inl rfl) herePlain, .names therePlain⟩
    · exact ⟨[.root], here, .parent :: there, rfl, rfl,
        congrArg (· + 1) (hereBehind _).1, .names herePlain,
        .parent (.inr rfl) therePlain⟩
    · exact ⟨[.root], .parent :: here, there, rfl, rfl,
        congrArg (· + 1) (thereBehind _).2, .parent (.inr rfl) herePlain,
        .names therePlain⟩

/-- The base that a relative specifier is resolved from names the target. -/
theorem relativeBase_relativeSpecifier {hereLead thereLead here there : List Component}
    {file stem : String} {importer target : Path} (importerAt : IsFileAt hereLead here file importer)
    (targetAt : IsModuleAt thereLead there stem target)
    (sameRoot : Component.root ∈ hereLead ↔ Component.root ∈ thereLead) :
    Resolution.relativeBase importer (importer.relativeSpecifier target) =
      ofComponents (thereLead ++ IsModuleAt.target there stem) := by
  obtain ⟨shared, lefts, rights, hereSplit, thereSplit, count, leftsStand, rightsStand⟩ :=
    exists_shared importerAt.lead_mem targetAt.isFile.lead_mem sameRoot
      importerAt.areNames_directory targetAt.areNames_target
  have hereRead : (importer.parent?.map components).getD [] = hereLead ++ here := by
    rw [importerAt.parent?_eq, Option.map_some, Option.getD_some, importerAt.components_parent]
  rw [← targetAt.specifierTarget_eq] at thereSplit count
  have walked := foldl_push_relativeSpecifier hereRead hereSplit thereSplit count
    importerAt.foldl_push_parent leftsStand rightsStand
  rw [Resolution.relativeBase, normalize, normalComponents, walked, List.reverse_reverse,
    targetAt.specifierTarget_eq]

end Path

namespace Resolution

open CreatorMigration.Path

/-- A tail that is put behind a path ends up behind its last name. -/
theorem text_ofComponents_concat (parts : List Component) (name tail : String) :
    (ofComponents (parts ++ [.name name])).text ++ tail =
      (ofComponents (parts ++ [.name (name ++ tail)])).text := by
  have joined := Text.join_concat_append (parts.map Component.text) name tail
  have mapped (text : String) :
      (parts ++ [Component.name text]).map Component.text = parts.map Component.text ++ [text] := by
    rw [List.map_append]
    rfl
  cases parts with
  | nil => exact joined
  | cons first rest =>
    cases first with
    | root =>
      have behind := Text.join_concat_append (rest.map Component.text) name tail
      simp only [List.cons_append, ofComponents, List.map_append, List.map_cons, List.map_nil,
        Component.text, String.append_assoc, behind]
    | current | parent | name =>
      rw [← mapped, ← mapped] at joined
      exact joined

theorem components_slash {front back : String} (nonempty : front ≠ "") :
    (⟨front ++ "/" ++ back⟩ : Path).components =
      (⟨front⟩ : Path).components ++ (Text.splitOn '/' back).filterMap Component.ofSegment? := by
  unfold components
  rw [Text.splitOn_slash]
  cases split : Text.splitOn '/' front with
  | nil => simp [Text.splitOn, List.splitOn_ne_nil] at split
  | cons first rest =>
    have behind : first = "" → rest ≠ [] := by
      rintro rfl rfl
      exact nonempty (Text.eq_empty_of_splitOn split)
    simp only [List.cons_append, List.filterMap_append, List.append_assoc]
    by_cases empty : first = ""
    · simp [empty, behind empty]
    · simp [empty]

theorem components_under_index (base : Path) :
    (base.under ⟨"index.ts"⟩).components = base.components ++ [.name "index.ts"] := by
  have relative : (⟨"index.ts"⟩ : Path).isAbsolute = false := by decide
  have name : (Text.splitOn '/' "index.ts").filterMap Component.ofSegment? =
      [.name "index.ts"] := by
    decide
  obtain ⟨text⟩ := base
  rw [under, relative, if_neg (by decide)]
  split
  -- no slash is put in behind the empty text or behind another slash
  · next short =>
    by_cases empty : text = ""
    · subst empty
      decide
    · obtain ⟨front, rfl⟩ := Text.exists_of_hasEnd (short.resolve_left empty)
      by_cases rooted : front = ""
      · subst rooted
        decide
      · have padded : front ++ "/" = front ++ "/" ++ "" := String.append_empty.symm
        rw [components_slash rooted, name, padded, components_slash rooted, Text.splitOn_empty]
        simp [Component.ofSegment?]
  · next long =>
    rw [components_slash fun empty => long (.inl empty), name]

theorem contains_congr {units : List Path} {left right : Path}
    (same : left.components = right.components) : units.contains left = units.contains right := by
  rw [List.contains_eq_any_beq, List.contains_eq_any_beq]
  exact congrArg (units.any ·) (funext fun _ => beq_congr same)

/-- Whether a candidate is taken when it is tried. -/
def admits (units : List Path) (candidate : Path) : Bool :=
  candidate.extension? == some "ts" && units.contains candidate

theorem unitAt?_target {lead there : List Component} {stem : String} {target : Path}
    (targetAt : IsModuleAt lead there stem target) {units : List Path}
    (loaded : units.contains target = true)
    (clear : stem = "index" →
      admits units ⟨(ofComponents (lead ++ there)).text ++ ".ts"⟩ = false) :
    ∃ found, unitAt? units (ofComponents (lead ++ IsModuleAt.target there stem)) = some found ∧
      found.components = target.components := by
  have admitted {candidate : Path} (same : candidate.components = target.components) :
      admits units candidate = true := by
    have extension : candidate.extension? = target.extension? := by
      rw [extension?, extension?, fileName?, fileName?, same]
    rw [admits, extension, targetAt.extension?_eq, contains_congr same, loaded]
    rfl
  change ∃ found, (candidates _).find? (admits units) = some found ∧ _
  unfold candidates IsModuleAt.target
  by_cases index : stem = "index"
  -- the unit that is named like the directory would be found first, hence `clear`
  · have second : ((ofComponents (lead ++ there)).under ⟨"index.ts"⟩).components =
        target.components := by
      rw [components_under_index, targetAt.isFile.components_parent,
        targetAt.isFile.components_eq, index]
      rfl
    rw [if_pos index, List.find?_cons, clear index, List.find?_cons, admitted second]
    exact ⟨_, rfl, second⟩
  · have first : (⟨(ofComponents (lead ++ (there ++ [.name stem]))).text ++ ".ts"⟩ :
        Path).components = target.components := by
      rw [← List.append_assoc, text_ofComponents_concat, targetAt.isFile.components_eq,
        List.append_assoc]
      exact components_ofComponents_lead targetAt.isFile.lead_mem targetAt.isFile.plain
    rw [if_neg index, List.find?_cons, admitted first]
    exact ⟨_, rfl, first⟩

/-- A relative specifier is resolved to the unit that it was written for. -/
theorem resolve_relativeSpecifier {layout : ProjectLayout} {root : Path} {units : List Path}
    {lead here there : List Component} {file stem : String} {importer target : Path}
    (importerAt : IsFileAt lead here file importer) (targetAt : IsModuleAt lead there stem target)
    (loaded : units.contains target = true)
    (clear : stem = "index" →
      units.contains ⟨(ofComponents (lead ++ there)).text ++ ".ts"⟩ = false) :
    ∃ found, resolve layout root units importer (importer.relativeSpecifier target) = some found ∧
      found.components = target.components := by
  have dotted : Text.hasStart "." (importer.relativeSpecifier target) = true :=
    hasStart_dotted _
  rw [resolve, if_pos dotted, relativeBase_relativeSpecifier importerAt targetAt Iff.rfl]
  exact unitAt?_target targetAt loaded fun index => by rw [admits, clear index, Bool.and_false]

end Resolution

end CreatorMigration
