import CreatorMigration.Proofs.Path.Specifier

/-! # Specifiers that lead back

A unit imports another one by a relative specifier, and the import is right if the specifier is
resolved to that other unit. `Resolution.leadsBack_iff` says when it is: both units must stand below
the same root, and no unit may be named like the directory of an `index` unit, as it would be found
first.
-/

namespace CreatorMigration

namespace Path

/-! ## Files in normal form -/

/-- A normal form that ends in a name is that of a file. -/
theorem exists_isFileAt {path : Path} {file : String}
    (normal : path.normalize.components = path.components) (named : path.fileName? = some file) :
    ∃ lead directory, IsFileAt lead directory file path := by
  obtain ⟨names, bottom, stack, bottomMember, plain⟩ := normalStack_foldl_components path
  have parts : path.components = bottom.reverse ++ names.reverse := by
    rw [← normal, components_normalize, normalComponents, stack, List.reverse_append]
  have last : path.components.getLast? = some (.name file) := by
    unfold fileName? at named
    split at named
    · next last => exact last.trans (congrArg (some ∘ Component.name) (Option.some.inj named))
    · cases named
  -- without a name behind it the normal form would end in its lead, which names no file
  cases names with
  | nil =>
    rw [parts, List.reverse_nil, List.append_nil] at last
    simp only [bottoms, List.mem_cons, List.not_mem_nil, or_false] at bottomMember
    rcases bottomMember with rfl | rfl | rfl | rfl <;> cases last
  | cons first rest =>
    rw [List.reverse_cons, ← List.append_assoc] at parts
    rw [parts, List.getLast?_concat] at last
    cases last
    refine ⟨bottom.reverse, rest.reverse, by rwa [List.reverse_reverse], ?_, parts⟩
    intro component member
    rw [← List.reverse_cons] at member
    exact plain component (List.mem_reverse.1 member)

theorem root_notMem_of_areNames {names : List Component} (plain : AreNames names) :
    Component.root ∉ names :=
  fun member => (plain _ member).1

theorem isAbsolute_iff_of_lead {path : Path} {lead names : List Component}
    (leads : lead.reverse ∈ bottoms) (plain : AreNames names)
    (parts : path.components = lead ++ names) :
    path.isAbsolute = true ↔ Component.root ∈ lead := by
  rw [isAbsolute, parts]
  rcases lead_cases leads with rfl | rfl | rfl | rfl
  · cases names with
    | nil => decide
    | cons first rest =>
      have notRoot : Component.root ≠ first := fun same =>
        root_notMem_of_areNames plain (same ▸ List.mem_cons_self)
      simp [Ne.symm notRoot]
  all_goals simp

theorem IsFileAt.isAbsolute_iff {lead directory : List Component} {file : String} {path : Path}
    (isFile : IsFileAt lead directory file path) :
    path.isAbsolute = true ↔ Component.root ∈ lead :=
  isAbsolute_iff_of_lead isFile.lead_mem isFile.plain
    (by rw [isFile.components_eq, List.append_assoc])

/-! ## From where a specifier is walked -/

/-- A segment goes on from where one stands, be it below the root or not. -/
theorem NormalStack.root_mem_push_iff {stack : List Component} (normal : NormalStack stack)
    {component : Component} (segment : component.IsSegment) :
    Component.root ∈ push stack component ↔ Component.root ∈ stack := by
  cases component with
  | root | current => exact segment.elim
  | name text => simp [push_name]
  | parent =>
    obtain ⟨names, bottom, rfl, bottomMember, plain⟩ := normal
    cases names with
    | nil =>
      simp only [bottoms, List.mem_cons, List.not_mem_nil, or_false] at bottomMember
      rcases bottomMember with rfl | rfl | rfl | rfl <;> decide
    | cons first rest =>
      obtain ⟨firstSegment, notParent⟩ := plain first List.mem_cons_self
      cases first with
      | root | current => exact firstSegment.elim
      | parent => exact absurd rfl notParent
      | name text => simp [push]

theorem NormalStack.root_mem_foldl_push_iff {stack segments : List Component}
    (normal : NormalStack stack) (allSegments : ∀ component ∈ segments, component.IsSegment) :
    Component.root ∈ segments.foldl push stack ↔ Component.root ∈ stack := by
  induction segments generalizing stack with
  | nil => rfl
  | cons first rest inductionHypothesis =>
    obtain ⟨firstSegment, restSegments⟩ := List.forall_mem_cons.1 allSegments
    exact (inductionHypothesis (normal.push_segment firstSegment) restSegments).trans
      (normal.root_mem_push_iff firstSegment)

/-- What a relative specifier is resolved from is a normal form below the root of the importing
unit. -/
theorem exists_relativeBase {lead directory : List Component} {file specifier : String}
    {importer : Path} (importerAt : IsFileAt lead directory file importer)
    (dotted : Text.hasStart "." specifier = true) :
    ∃ baseLead names, Resolution.relativeBase importer specifier =
        ofComponents (baseLead ++ names) ∧
      baseLead.reverse ∈ bottoms ∧ AreNames names ∧
      (Component.root ∈ baseLead ↔ Component.root ∈ lead) := by
  have segments : ∀ component ∈ (Text.splitOn '/' specifier).filterMap Component.ofSegment?,
      component.IsSegment := by
    intro component member
    obtain ⟨segment, segmentMember, read⟩ := List.mem_filterMap.1 member
    exact Component.isSegment_of_ofSegment? (Text.slash_notMem_of_mem_splitOn segmentMember) read
  -- the segments of the specifier neither bring a root nor take one away
  have below : Component.root ∈ (((importer.parent?).getD ⟨""⟩).under ⟨specifier⟩).components.foldl
      push [] ↔ Component.root ∈ lead := by
    have normal := normalStack_lead importerAt.lead_mem importerAt.areNames_directory
    rw [foldl_push_under _ dotted, importerAt.foldl_push_parent, walk,
      normal.root_mem_foldl_push_iff segments, List.mem_reverse, List.mem_append]
    exact or_iff_left (root_notMem_of_areNames importerAt.areNames_directory)
  obtain ⟨names, bottom, stack, bottomMember, plain⟩ := normalStack_foldl_components
    (((importer.parent?).getD ⟨""⟩).under ⟨specifier⟩)
  have plainThen : AreNames names.reverse := fun component member =>
    plain component (List.mem_reverse.1 member)
  refine ⟨bottom.reverse, names.reverse, ?_, by rwa [List.reverse_reverse], plainThen, ?_⟩
  · rw [Resolution.relativeBase, normalize, normalComponents, stack, List.reverse_append]
  · rw [← below, stack, List.mem_append, List.mem_reverse]
    exact (or_iff_right (root_notMem_of_areNames plain)).symm

end Path

namespace Resolution

open CreatorMigration.Path

/-! ## What is tried -/

/-- The unit named like a directory stands below the root just if the directory does, and it is not
the `index` unit in there. -/
theorem components_named {lead names : List Component} (leads : lead.reverse ∈ bottoms)
    (plain : AreNames names) {named : Path}
    (written : named = ⟨(ofComponents (lead ++ names)).text ++ ".ts"⟩) :
    (Component.root ∈ named.components ↔ Component.root ∈ lead) ∧
      named.components ≠ lead ++ names ++ [.name "index.ts"] := by
  subst written
  rcases List.eq_nil_or_concat names with rfl | ⟨front, last, rfl⟩
  · rw [List.append_nil]
    rcases lead_cases leads with rfl | rfl | rfl | rfl <;> decide
  · obtain ⟨segment, notParent⟩ := plain last (by simp)
    cases last with
    | root | current => exact segment.elim
    | parent => exact absurd rfl notParent
    | name text =>
      have plainThen : AreNames (front ++ [.name (text ++ ".ts")]) := by
        intro component member
        rcases List.mem_append.1 member with member | member
        · exact plain component (by simp [member])
        · rw [List.mem_singleton.1 member]
          exact ⟨segment.append (by decide), by simp⟩
      rw [List.concat_eq_append, ← List.append_assoc, text_ofComponents_concat, List.append_assoc,
        components_ofComponents_lead leads plainThen, List.mem_append]
      refine ⟨or_iff_left (root_notMem_of_areNames plainThen), fun same => ?_⟩
      have lengths := congrArg List.length same
      simp at lengths

theorem root_mem_of_mem_candidates {lead names : List Component}
    (leads : lead.reverse ∈ bottoms) (plain : AreNames names) {candidate : Path}
    (member : candidate ∈ candidates (ofComponents (lead ++ names))) :
    Component.root ∈ candidate.components ↔ Component.root ∈ lead := by
  have read := components_ofComponents_lead leads plain
  simp only [candidates, List.mem_cons, List.not_mem_nil, or_false] at member
  rcases member with named | rfl | rfl
  · exact (components_named leads plain named).1
  · rw [components_under_index, read, List.mem_append, List.mem_append]
    simp [root_notMem_of_areNames plain]
  · rw [read, List.mem_append]
    exact or_iff_left (root_notMem_of_areNames plain)

/-! ## When a specifier leads back -/

/-- The specifier that a unit imports another one by is resolved to that other one. -/
def LeadsBack (layout : ProjectLayout) (root : Path) (units : List Path) (importer target : Path) :
    Prop :=
  ∃ found, resolve layout root units importer (importer.relativeSpecifier target) = some found ∧
    (found == target) = true

/-- The place of a unit that is named like the directory of another one. -/
def besideDirectory (target : Path) : Path := ⟨((target.parent?).getD ⟨""⟩).text ++ ".ts"⟩

/-- A unit is loaded that is named like the directory of an `index` unit. -/
structure IsHidden (units : List Path) (target : Path) : Prop where
  index : target.fileName? = some "index.ts"
  admitted : admits units (besideDirectory target) = true

variable {layout : ProjectLayout} {root : Path} {units : List Path} {importer target : Path}

/-- No specifier leads from below the root to where no path from the root leads, or back. -/
theorem LeadsBack.isAbsolute_eq {hereLead here thereLead there : List Component}
    {file targetFile : String} (leadsBack : LeadsBack layout root units importer target)
    (importerAt : IsFileAt hereLead here file importer)
    (targetAt : IsFileAt thereLead there targetFile target) :
    importer.isAbsolute = target.isAbsolute := by
  obtain ⟨found, resolved, same⟩ := leadsBack
  have dotted : Text.hasStart "." (importer.relativeSpecifier target) = true := hasStart_dotted _
  rw [resolve, if_pos dotted] at resolved
  obtain ⟨lead, names, base, leads, plain, below⟩ := exists_relativeBase importerAt dotted
  rw [base] at resolved
  have rooted := root_mem_of_mem_candidates leads plain (List.mem_of_find?_eq_some resolved)
  have targetRooted : Component.root ∈ target.components ↔ Component.root ∈ thereLead := by
    rw [targetAt.components_eq, List.append_assoc, List.mem_append]
    exact or_iff_left (root_notMem_of_areNames targetAt.plain)
  rw [Path.beq_iff.1 same, targetRooted, below] at rooted
  rw [Bool.eq_iff_iff, importerAt.isAbsolute_iff, targetAt.isAbsolute_iff, rooted]

/-- A relative specifier leads back to the unit that it was written for exactly when both units have
absolute paths or none, and no unit named like the directory hides an `index` unit. -/
theorem leadsBack_iff {file stem : String}
    (importerNormal : importer.normalize.components = importer.components)
    (importerNamed : importer.fileName? = some file)
    (targetNormal : target.normalize.components = target.components)
    (targetNamed : target.fileName? = some (stem ++ ".ts"))
    (stemNamed : stem ≠ "" ∧ stem ≠ "." ∧ stem ≠ "..") (loaded : units.contains target = true) :
    LeadsBack layout root units importer target ↔
      importer.isAbsolute = target.isAbsolute ∧ ¬ IsHidden units target := by
  obtain ⟨hereLead, here, importerAt⟩ := exists_isFileAt importerNormal importerNamed
  obtain ⟨thereLead, there, targetFileAt⟩ := exists_isFileAt targetNormal targetNamed
  have slashFree : '/' ∉ stem.toList := by
    have fileSegment := (targetFileAt.plain _ (List.mem_append_right _ List.mem_cons_self)).1
    exact fun member => fileSegment.2.2.2 (by simp [member])
  have targetAt : IsModuleAt thereLead there stem target :=
    ⟨targetFileAt, stemNamed.1, stemNamed.2.1, stemNamed.2.2, slashFree⟩
  have dotted : Text.hasStart "." (importer.relativeSpecifier target) = true := hasStart_dotted _
  have beside : besideDirectory target = ⟨(ofComponents (thereLead ++ there)).text ++ ".ts"⟩ := by
    rw [besideDirectory, targetFileAt.parent?_eq, Option.getD_some]
  have isIndex : stem = "index" ↔ target.fileName? = some "index.ts" := by
    have written : "index.ts" = "index" ++ ".ts" := rfl
    rw [targetNamed, Option.some.injEq, written, String.append_left_inj]
  constructor
  · intro leadsBack
    have sameRoot := leadsBack.isAbsolute_eq importerAt targetFileAt
    refine ⟨sameRoot, fun hidden => ?_⟩
    obtain ⟨found, resolved, same⟩ := leadsBack
    rw [Bool.eq_iff_iff, importerAt.isAbsolute_iff, targetFileAt.isAbsolute_iff] at sameRoot
    rw [resolve, if_pos dotted, relativeBase_relativeSpecifier importerAt targetAt sameRoot,
      IsModuleAt.target, if_pos (isIndex.2 hidden.index)] at resolved
    -- the unit named like the directory is tried first and taken
    have taken : (candidates (ofComponents (thereLead ++ there))).find? (admits units) =
        some (besideDirectory target) := by
      rw [candidates, ← beside, List.find?_cons, hidden.admitted]
    cases resolved.symm.trans taken
    have targetParts := targetFileAt.components_eq
    rw [isIndex.2 hidden.index] at targetParts
    exact (components_named targetFileAt.lead_mem targetFileAt.areNames_directory beside).2
      ((Path.beq_iff.1 same).trans targetParts)
  · rintro ⟨sameRoot, notHidden⟩
    rw [Bool.eq_iff_iff, importerAt.isAbsolute_iff, targetFileAt.isAbsolute_iff] at sameRoot
    have clear : stem = "index" →
        admits units ⟨(ofComponents (thereLead ++ there)).text ++ ".ts"⟩ = false := by
      intro index
      rw [← beside, Bool.eq_false_iff]
      exact fun admitted => notHidden ⟨isIndex.1 index, admitted⟩
    obtain ⟨found, resolved, same⟩ := unitAt?_target targetAt loaded clear
    refine ⟨found, ?_, Path.beq_iff.2 same⟩
    rw [resolve, if_pos dotted, relativeBase_relativeSpecifier importerAt targetAt sameRoot]
    exact resolved

/-- Units in the directory of the root and in one beside it. -/
def neighbours : List Path := [⟨"../web/u.ts"⟩, ⟨"lib/index.ts"⟩, ⟨"web.ts"⟩]

theorem leadsBack_iff_neighbours :
    (⟨"../web/u.ts"⟩ : Path).normalize.components = (⟨"../web/u.ts"⟩ : Path).components ∧
      (⟨"../web/u.ts"⟩ : Path).fileName? = some "u.ts" ∧
      (⟨"lib/index.ts"⟩ : Path).normalize.components = (⟨"lib/index.ts"⟩ : Path).components ∧
      (⟨"lib/index.ts"⟩ : Path).fileName? = some ("index" ++ ".ts") ∧
      ("index" ≠ "" ∧ "index" ≠ "." ∧ "index" ≠ "..") ∧
      neighbours.contains ⟨"lib/index.ts"⟩ = true ∧
      LeadsBack {} ⟨""⟩ neighbours ⟨"../web/u.ts"⟩ ⟨"lib/index.ts"⟩ := by
  have importerNormal : (⟨"../web/u.ts"⟩ : Path).normalize.components =
      (⟨"../web/u.ts"⟩ : Path).components := by decide
  have importerNamed : (⟨"../web/u.ts"⟩ : Path).fileName? = some "u.ts" := by decide
  have targetNormal : (⟨"lib/index.ts"⟩ : Path).normalize.components =
      (⟨"lib/index.ts"⟩ : Path).components := by decide
  have targetNamed : (⟨"lib/index.ts"⟩ : Path).fileName? = some ("index" ++ ".ts") := by decide
  have stemNamed : "index" ≠ "" ∧ "index" ≠ "." ∧ "index" ≠ ".." := by decide
  have loaded : neighbours.contains ⟨"lib/index.ts"⟩ = true := by decide
  have notHidden : ¬ IsHidden neighbours ⟨"lib/index.ts"⟩ := fun hidden =>
    absurd hidden.admitted (by decide)
  exact ⟨importerNormal, importerNamed, targetNormal, targetNamed, stemNamed, loaded,
    (leadsBack_iff importerNormal importerNamed targetNormal targetNamed stemNamed loaded).2
      ⟨by decide, notHidden⟩⟩

/-- An `index` unit beside a unit that is named like its directory. -/
def besideIndex : List Path := [⟨"dir.ts"⟩, ⟨"dir/index.ts"⟩, ⟨"u.ts"⟩]

/-- The import of the `index` unit is one of the unit beside its directory. -/
theorem not_leadsBack_besideIndex :
    (∀ unit ∈ besideIndex, unit.normalize.components = unit.components ∧
        unit.extension? = some "ts") ∧
      ¬ LeadsBack {} ⟨""⟩ besideIndex ⟨"u.ts"⟩ ⟨"dir/index.ts"⟩ := by
  refine ⟨by decide, ?_⟩
  rintro ⟨found, resolved, same⟩
  have missed : ((resolve {} ⟨""⟩ besideIndex ⟨"u.ts"⟩
      ((⟨"u.ts"⟩ : Path).relativeSpecifier ⟨"dir/index.ts"⟩)).any
        (· == (⟨"dir/index.ts"⟩ : Path))) = false := by decide
  rw [resolved, Option.any_some, same] at missed
  cases missed

end Resolution

end CreatorMigration
