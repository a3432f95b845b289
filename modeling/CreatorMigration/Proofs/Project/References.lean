import CreatorMigration.Project.Reference
import CreatorMigration.Proofs.Project.Units

/-! # What refers to a declared name

* `Project.IsReference` reads the imports and re-exports of a project as they are written: every
  entry of every list counts, whatever specifier it stands behind.
* `Project.Tracks` is what a search for references goes by. It resolves only specifiers that
  `mayName` lets through, takes the first entry of a list for a name, and takes a star for a star
  whether or not it has a name of its own.
* `Project.references_exact_iff` says for which projects the search finds the references.
-/

namespace CreatorMigration

/-- The reference that an identifier makes. -/
def SourceUnit.referenceAt (unit : SourceUnit) (place : Place) : Reference :=
  { unit := unit.path, span := place.node.span, inImport := place.isInside .importStatement }

namespace Project

variable (project : Project)

/-! ## References as they are written -/

def ResolvesTo (unit : SourceUnit) (specifier : String) (target : Path) : Prop :=
  ∃ module ∈ project.resolve unit.path specifier, (module == target) = true

/-- Whether an `export … from` passes `name` on as `outer`. A star passes on every name as it is,
but with a name of its own it passes on a single object. -/
def ListsAs (text : String) (statement : Node) (name outer : String) : Prop :=
  (∃ list ∈ statement.childOfKind? .exportClause,
      (name, outer) ∈ list.namedParts.filterMap (ReExport.readPair text)) ∨
    statement.childOfKind? .exportClause = none ∧
      (statement.childOfKind? .namespaceExport).isNone = true ∧ outer = name

/-- Whether `unit` passes on as `outer` what `target` declares as `name`. -/
def PassesOn (target : Path) (name : String) (unit : SourceUnit) (outer : String) : Prop :=
  ∃ statement ∈ unit.topLevelOf .exportStatement, ∃ source ∈ statement.child? .source,
    project.ResolvesTo unit (Text.unquote (source.textIn unit.text)) target ∧
      ListsAs unit.text statement name outer

/-- Whether `outer`, imported from `module`, is what `target` declares as `name`. -/
def Provides (target : Path) (name : String) (module : Path) (outer : String) : Prop :=
  ((module == target) = true ∧ outer = name) ∨
    ∃ unit ∈ project.units, (module == unit.path) = true ∧ project.PassesOn target name unit outer

/-- Whether an import binds a local name of `unit` to what `target` declares as `name`. -/
def Binds (target : Path) (name : String) (unit : SourceUnit) (localName : String) : Prop :=
  ∃ statement ∈ unit.imports, ∃ module ∈ project.resolve unit.path statement.source,
    ∃ specifier ∈ statement.named, specifier.localName = localName ∧
      project.Provides target name module specifier.name

/-- Whether an identifier of `unit` stands for what `target` declares as `name`. -/
def StandsFor (target : Path) (name : String) (unit : SourceUnit) (place : Place) : Prop :=
  place.node.kind.isAnyIdentifier = true ∧
    if unit.path == target then unit.textOf place.node = name
    else project.Binds target name unit (unit.textOf place.node)

def IsReference (declaring : Path) (name : String) (reference : Reference) : Prop :=
  ∃ unit ∈ project.units, ∃ place ∈ unit.tree.places,
    project.StandsFor declaring.normalize name unit place ∧ reference = unit.referenceAt place

section Decidable

variable (target : Path) (name : String) (unit : SourceUnit)

instance (specifier : String) : Decidable (project.ResolvesTo unit specifier target) :=
  inferInstanceAs (Decidable (∃ module ∈ _, _))

instance (text : String) (statement : Node) (outer : String) :
    Decidable (ListsAs text statement name outer) :=
  inferInstanceAs (Decidable (_ ∨ _))

instance (outer : String) : Decidable (project.PassesOn target name unit outer) :=
  inferInstanceAs (Decidable (∃ statement ∈ _, ∃ source ∈ _, _))

instance (module : Path) (outer : String) : Decidable (project.Provides target name module outer) :=
  inferInstanceAs (Decidable (_ ∨ ∃ unit ∈ _, _))

instance (localName : String) : Decidable (project.Binds target name unit localName) :=
  inferInstanceAs (Decidable (∃ statement ∈ _, ∃ module ∈ _, ∃ specifier ∈ _, _))

instance (place : Place) : Decidable (project.StandsFor target name unit place) :=
  inferInstanceAs (Decidable (_ ∧ ite _ _ _))

end Decidable

/-! ## References as they are followed -/

/-- `Provides` for what is followed: of a list of exports only the first entry for the name, and no
list of the declaring unit itself. -/
def Follows (target : Path) (name : String) (module : Path) (outer : String) : Prop :=
  ((module == target) = true ∧ outer = name) ∨
    ∃ unit ∈ project.units, (unit.path == target) = false ∧ (module == unit.path) = true ∧
      ∃ statement ∈ unit.reExports, project.ResolvesTo unit statement.source target ∧
        statement.outerName? name = some outer

/-- The stems that specifiers are compared with before they are resolved. -/
def routeStems (target : Path) (name : String) : List String :=
  (project.routes target name).map fun route => moduleName route.module

/-- `Binds` for what is followed: of a list of imports only the first entry for a name. -/
def Tracks (target : Path) (name : String) (unit : SourceUnit) (localName : String) : Prop :=
  ∃ statement ∈ unit.imports, mayName (project.routeStems target name) statement.source = true ∧
    ∃ module ∈ project.resolve unit.path statement.source, ∃ outer,
      ∃ specifier ∈ statement.specifierFor? outer, specifier.localName = localName ∧
        project.Follows target name module outer

/-! ## What the search finds -/

variable {project}

theorem resolvesTo_iff {unit : SourceUnit} {specifier : String} {target : Path} :
    project.ResolvesTo unit specifier target ↔
      (project.resolve unit.path specifier).any (· == target) = true := by
  rw [Option.any_eq_true]
  rfl

theorem mem_passedOnAs {target : Path} {name : String} {unit : SourceUnit} {route : Route} :
    route ∈ project.passedOnAs target name unit ↔
      ∃ statement ∈ unit.reExports, project.ResolvesTo unit statement.source target ∧
        statement.outerName? name = some route.name ∧ route.module = unit.path := by
  rw [passedOnAs, List.mem_filterMap]
  refine exists_congr fun statement => and_congr_right fun _ => ?_
  rw [resolvesTo_iff]
  obtain ⟨module, outer⟩ := route
  cases statement.outerName? name with
  | none => simp
  | some exported =>
    by_cases resolved : (project.resolve unit.path statement.source).any (· == target) = true
    · simp only [resolved, if_true, Option.some.injEq, Route.mk.injEq, true_and]
      exact ⟨fun ⟨path, exported⟩ => ⟨exported, path.symm⟩,
        fun ⟨exported, path⟩ => ⟨path.symm, exported⟩⟩
    · simp [resolved]

theorem exists_route_iff {target : Path} {name : String} {module : Path} {outer : String} :
    (∃ route ∈ project.routes target name,
        (module == route.module) = true ∧ route.name = outer) ↔
      project.Follows target name module outer := by
  constructor
  · rintro ⟨route, member, same, rfl⟩
    rcases List.mem_cons.1 member with rfl | member
    · exact .inl ⟨same, rfl⟩
    · obtain ⟨unit, unitMember, routeMember⟩ := List.mem_flatMap.1 member
      obtain ⟨unitMember, other⟩ := List.mem_filter.1 unitMember
      obtain ⟨statement, statementMember, resolved, exported, path⟩ :=
        mem_passedOnAs.1 routeMember
      exact .inr ⟨unit, unitMember, by simpa using other, path ▸ same, statement,
        statementMember, resolved, exported⟩
  · rintro (⟨same, rfl⟩ | ⟨unit, unitMember, other, same, statement, statementMember, resolved,
      exported⟩)
    · exact ⟨_, List.mem_cons_self, same, rfl⟩
    · refine ⟨⟨unit.path, outer⟩, List.mem_cons_of_mem _ (List.mem_flatMap.2 ⟨unit, ?_, ?_⟩),
        same, rfl⟩
      · exact List.mem_filter.2 ⟨unitMember, by simpa using other⟩
      · exact mem_passedOnAs.2 ⟨statement, statementMember, resolved, exported, rfl⟩

theorem mem_boundToRoutes {routes : List Route} {module : Path} {statement : Import}
    {localName : String} :
    localName ∈ boundToRoutes routes module statement ↔
      ∃ route ∈ routes, (module == route.module) = true ∧
        ∃ specifier ∈ statement.specifierFor? route.name, specifier.localName = localName := by
  simp only [boundToRoutes, List.mem_filterMap, List.mem_filter, Option.map_eq_some_iff, and_assoc,
    Option.mem_def]

theorem mem_localsFor {target : Path} {name localName : String} {unit : SourceUnit} :
    localName ∈ project.localsFor (project.routes target name) unit ↔
      project.Tracks target name unit localName := by
  rw [localsFor, Text.mem_nameSet, List.mem_flatMap]
  refine exists_congr fun statement => and_congr_right fun _ => ?_
  change localName ∈ (if mayName (project.routeStems target name) statement.source then _ else _) ↔
    _
  by_cases admitted : mayName (project.routeStems target name) statement.source = true
  · rw [if_pos admitted]
    cases project.resolve unit.path statement.source with
    | none => simp
    | some module =>
      simp only [admitted, true_and, Option.mem_some_iff, exists_eq_left', mem_boundToRoutes,
        ← exists_route_iff]
      constructor
      · rintro ⟨route, member, same, specifier, found, bound⟩
        exact ⟨route.name, specifier, found, bound, route, member, same, rfl⟩
      · rintro ⟨_, specifier, found, bound, route, member, same, rfl⟩
        exact ⟨route, member, same, specifier, found, bound⟩
  · simp [admitted]

theorem mem_referencesTo {unit : SourceUnit} {name : String} {reference : Reference} :
    reference ∈ unit.referencesTo name ↔
      ∃ place ∈ unit.tree.places, place.node.kind.isAnyIdentifier = true ∧
        unit.textOf place.node = name ∧ reference = unit.referenceAt place := by
  simp only [SourceUnit.referencesTo, SourceUnit.identifierPlaces, List.mem_map, List.mem_filter,
    Bool.and_eq_true, beq_iff_eq, and_assoc]
  constructor
  · rintro ⟨place, member, identifier, text, rfl⟩
    exact ⟨place, member, identifier, text, rfl⟩
  · rintro ⟨place, member, identifier, text, rfl⟩
    exact ⟨place, member, identifier, text, rfl⟩

/-- The search finds the identifiers that stand for what it follows. -/
theorem mem_references {declaring : Path} {name : String} {reference : Reference} :
    reference ∈ project.references declaring name ↔
      ∃ unit ∈ project.units, ∃ place ∈ unit.tree.places,
        place.node.kind.isAnyIdentifier = true ∧
          (if unit.path == declaring.normalize then unit.textOf place.node = name
            else project.Tracks declaring.normalize name unit (unit.textOf place.node)) ∧
          reference = unit.referenceAt place := by
  simp only [references, List.mem_append, List.mem_flatMap, List.mem_filter, Option.mem_toList,
    unit?_normalize, unit?_eq_some_iff, mem_referencesTo, mem_localsFor]
  constructor
  · rintro (⟨unit, ⟨member, own⟩, place, placeMember, identifier, text, rfl⟩ |
      ⟨unit, ⟨member, other⟩, localName, tracked, place, placeMember, identifier, rfl, rfl⟩)
    · exact ⟨unit, member, place, placeMember, identifier, by rw [if_pos own]; exact text, rfl⟩
    · have other : ¬(unit.path == declaring.normalize) = true := by simpa using other
      exact ⟨unit, member, place, placeMember, identifier, by rw [if_neg other]; exact tracked,
        rfl⟩
  · rintro ⟨unit, member, place, placeMember, identifier, named, rfl⟩
    by_cases own : (unit.path == declaring.normalize) = true
    · rw [if_pos own] at named
      exact .inl ⟨unit, ⟨member, own⟩, place, placeMember, identifier, named, rfl⟩
    · rw [if_neg own] at named
      exact .inr ⟨unit, ⟨member, by simpa using own⟩, _, named, place, placeMember, identifier,
        rfl, rfl⟩

/-! ## When the search is exact -/

/-- Two identifiers that make the same reference stand in one unit and have one text. -/
theorem eq_of_referenceAt_eq {unit other : SourceUnit} {place otherPlace : Place}
    (member : unit ∈ project.units) (otherMember : other ∈ project.units)
    (same : unit.referenceAt place = other.referenceAt otherPlace) :
    unit = other ∧ unit.textOf place.node = unit.textOf otherPlace.node := by
  obtain ⟨paths, spans, _⟩ := Reference.mk.inj same
  have units : unit = other :=
    project.eq_of_path_beq member otherMember (by rw [paths]; exact Path.beq_iff.2 rfl)
  exact ⟨units, by rw [SourceUnit.textOf, Node.textIn, spans]; rfl⟩

theorem exact_iff_tracks_iff_binds (project : Project) (declaring : Path) (name : String) :
    (∀ reference, reference ∈ project.references declaring name ↔
        project.IsReference declaring name reference) ↔
      ∀ unit ∈ project.units, (unit.path == declaring.normalize) = false →
        ∀ place ∈ unit.tree.places, place.node.kind.isAnyIdentifier = true →
          (project.Tracks declaring.normalize name unit (unit.textOf place.node) ↔
            project.Binds declaring.normalize name unit (unit.textOf place.node)) := by
  constructor
  -- a reference tells the unit and the text of its identifier, so each side gives back the other
  · intro exact unit member other place placeMember identifier
    have notOwn : ¬(unit.path == declaring.normalize) = true := by simpa using other
    have agrees := exact (unit.referenceAt place)
    rw [mem_references, IsReference] at agrees
    constructor
    · intro tracked
      obtain ⟨found, foundMember, foundPlace, foundPlaceMember, ⟨_, named⟩, same⟩ :=
        agrees.1 ⟨unit, member, place, placeMember, identifier, by rwa [if_neg notOwn], rfl⟩
      obtain ⟨rfl, text⟩ := eq_of_referenceAt_eq member foundMember same
      rw [if_neg notOwn] at named
      rwa [text]
    · intro bound
      obtain ⟨found, foundMember, foundPlace, foundPlaceMember, _, named, same⟩ :=
        agrees.2 ⟨unit, member, place, placeMember, ⟨identifier, by rwa [if_neg notOwn]⟩, rfl⟩
      obtain ⟨rfl, text⟩ := eq_of_referenceAt_eq member foundMember same
      rw [if_neg notOwn] at named
      rwa [text]
  · intro agree reference
    rw [mem_references, IsReference]
    refine exists_congr fun unit => and_congr_right fun member => exists_congr fun place =>
      and_congr_right fun placeMember => ?_
    rw [StandsFor, and_assoc]
    refine and_congr_right fun identifier => and_congr_left fun _ => ?_
    -- the declaring unit is searched by the text alone
    by_cases own : (unit.path == declaring.normalize) = true
    · rw [if_pos own, if_pos own]
    · rw [if_neg own, if_neg own]
      exact agree unit member (by simpa using own) place placeMember identifier

/-- The search finds what it follows. These are the references to a name exactly when, for every
identifier of another unit, the imports that it follows bind the text of the identifier if and only
if some import does. -/
theorem references_exact_iff (project : Project) (declaring : Path) (name : String) :
    (∀ reference, reference ∈ project.references declaring name ↔
      ∃ unit ∈ project.units, ∃ place ∈ unit.tree.places,
        place.node.kind.isAnyIdentifier = true ∧
          (if unit.path == declaring.normalize then unit.textOf place.node = name
            else project.Tracks declaring.normalize name unit (unit.textOf place.node)) ∧
          reference = unit.referenceAt place) ∧
    ((∀ reference, reference ∈ project.references declaring name ↔
        project.IsReference declaring name reference) ↔
      ∀ unit ∈ project.units, (unit.path == declaring.normalize) = false →
        ∀ place ∈ unit.tree.places, place.node.kind.isAnyIdentifier = true →
          (project.Tracks declaring.normalize name unit (unit.textOf place.node) ↔
            project.Binds declaring.normalize name unit (unit.textOf place.node))) :=
  ⟨fun _ => mem_references, exact_iff_tracks_iff_binds project declaring name⟩

/-- One unit imports a class under two names. -/
def twoAliases : Project :=
  ofSources ⟨""⟩ {}
    [(⟨"d.ts"⟩, "export class Load \x7b\x7d\n"),
     (⟨"u.ts"⟩, "import \x7b Load as A, Load as B \x7d from './d';\nnew A();\nnew B();\n")]

/-- The second alias is a local name of the class, and the search misses it. -/
theorem not_references_exact_twoAliases :
    ¬ ∀ reference, reference ∈ twoAliases.references ⟨"d.ts"⟩ "Load" ↔
      twoAliases.IsReference ⟨"d.ts"⟩ "Load" reference := by
  intro exact
  -- its span is no span of an answer, in whatever unit
  have missed : ∃ unit ∈ twoAliases.units, ∃ place ∈ unit.tree.places,
      twoAliases.StandsFor (Path.normalize ⟨"d.ts"⟩) "Load" unit place ∧
        place.node.span ∉ (twoAliases.references ⟨"d.ts"⟩ "Load").map Reference.span := by
    decide +kernel
  obtain ⟨unit, member, place, placeMember, stands, absent⟩ := missed
  have found : unit.referenceAt place ∈ twoAliases.references ⟨"d.ts"⟩ "Load" :=
    (exact _).2 ⟨unit, member, place, placeMember, stands, rfl⟩
  exact absent (List.mem_map.2 ⟨_, found, rfl⟩)

/-! ## Projects that are searched in full -/

/-- Nothing is imported or passed on in a way that the search does not follow. -/
structure IsPlain (project : Project) (target : Path) (name : String) : Prop where
  admitted : ∀ unit ∈ project.units, ∀ statement ∈ unit.imports,
    ∀ module ∈ project.resolve unit.path statement.source, ∀ outer,
      project.Provides target name module outer →
        mayName (project.routeStems target name) statement.source = true
  importedOnce : ∀ unit ∈ project.units, ∀ statement ∈ unit.imports,
    (statement.named.map ImportSpecifier.name).Nodup
  passedOnOnce : ∀ unit ∈ project.units, ∀ statement ∈ unit.reExports,
    ∀ pairs ∈ statement.names, (pairs.map Prod.fst).Nodup
  starsUnnamed : ∀ unit ∈ project.units, ∀ statement ∈ unit.topLevelOf .exportStatement,
    (statement.childOfKind? .namespaceExport).isNone = true
  passedOnByOthers : ∀ unit ∈ project.units, ∀ statement ∈ unit.reExports,
    project.ResolvesTo unit statement.source target → (unit.path == target) = false

theorem lookup_eq_some_iff {pairs : List (String × String)} (once : (pairs.map Prod.fst).Nodup)
    {name outer : String} : pairs.lookup name = some outer ↔ (name, outer) ∈ pairs := by
  induction pairs with
  | nil => simp
  | cons first rest inductionHypothesis =>
    obtain ⟨other, value⟩ := first
    rw [List.map_cons, List.nodup_cons] at once
    rw [List.lookup_cons, List.mem_cons]
    by_cases same : name = other
    · subst same
      have absent : (name, outer) ∉ rest := fun member =>
        once.1 (List.mem_map.2 ⟨_, member, rfl⟩)
      simp [absent, eq_comm]
    · rw [beq_eq_false_iff_ne.2 same]
      simp [same, inductionHypothesis once.2]

theorem find?_name_eq_some_iff {specifiers : List ImportSpecifier}
    (once : (specifiers.map ImportSpecifier.name).Nodup) {name : String}
    {specifier : ImportSpecifier} :
    specifiers.find? (fun other => other.name == name) = some specifier ↔
      specifier ∈ specifiers ∧ specifier.name = name := by
  induction specifiers with
  | nil => simp
  | cons first rest inductionHypothesis =>
    rw [List.map_cons, List.nodup_cons] at once
    rw [List.find?_cons, List.mem_cons]
    by_cases same : first.name = name
    -- the first one of its name is the only one
    · have absent : ¬(specifier ∈ rest ∧ specifier.name = name) := fun ⟨member, named⟩ =>
        once.1 (List.mem_map.2 ⟨_, member, named.trans same.symm⟩)
      rw [beq_iff_eq.2 same, or_and_right, or_iff_left absent]
      constructor
      · intro found
        cases found
        exact ⟨rfl, same⟩
      · rintro ⟨rfl, _⟩
        rfl
    · rw [beq_eq_false_iff_ne.2 same, or_and_right, inductionHypothesis once.2, or_iff_right]
      rintro ⟨rfl, named⟩
      exact same named

theorem source_of_ofNode? {text : String} {node : Node} {statement : ReExport}
    (read : ReExport.ofNode? text node = some statement) :
    ∃ source, node.child? .source = some source ∧
      statement.source = Text.unquote (source.textIn text) := by
  rw [ReExport.ofNode?, Option.map_eq_some_iff] at read
  obtain ⟨source, found, made⟩ := read
  refine ⟨source, found, ?_⟩
  rw [← made]

theorem exists_reExport (text : String) {node source : Node}
    (found : node.child? .source = some source) :
    ∃ statement, ReExport.ofNode? text node = some statement ∧
      statement.source = Text.unquote (source.textIn text) := by
  cases read : ReExport.ofNode? text node with
  | none => simp [ReExport.ofNode?, found] at read
  | some statement =>
    obtain ⟨other, otherFound, named⟩ := source_of_ofNode? read
    cases found.symm.trans otherFound
    exact ⟨statement, rfl, named⟩

theorem listsAs_iff {text : String} {node : Node} {statement : ReExport}
    (read : ReExport.ofNode? text node = some statement)
    (unnamed : (node.childOfKind? .namespaceExport).isNone = true)
    (once : ∀ pairs ∈ statement.names, (pairs.map Prod.fst).Nodup) {name outer : String} :
    ListsAs text node name outer ↔ statement.outerName? name = some outer := by
  obtain ⟨source, _, rfl⟩ := Option.map_eq_some_iff.1 read
  rw [ListsAs, ReExport.outerName?]
  cases list : node.childOfKind? .exportClause with
  | none => simp [unnamed, eq_comm]
  | some list =>
    simp only [list, Option.map_some, Option.mem_some_iff, exists_eq_left', reduceCtorEq, false_and,
      or_false] at once ⊢
    exact (lookup_eq_some_iff (once _ rfl)).symm

/-- In a plain project what is followed is what is written. -/
theorem IsPlain.provides_iff {target : Path} {name : String}
    (plain : project.IsPlain target name) {module : Path} {outer : String} :
    project.Provides target name module outer ↔ project.Follows target name module outer := by
  refine or_congr Iff.rfl (exists_congr fun unit => and_congr_right fun member => ?_)
  constructor
  · rintro ⟨same, node, nodeMember, source, sourceMember, resolved, listed⟩
    obtain ⟨statement, read, named⟩ := exists_reExport unit.text sourceMember
    have statementMember : statement ∈ unit.reExports :=
      List.mem_filterMap.2 ⟨node, nodeMember, read⟩
    rw [← named] at resolved
    refine ⟨plain.passedOnByOthers unit member statement statementMember resolved, same, statement,
      statementMember, resolved, ?_⟩
    exact (listsAs_iff read (plain.starsUnnamed unit member node nodeMember)
      (plain.passedOnOnce unit member statement statementMember)).1 listed
  · rintro ⟨_, same, statement, statementMember, resolved, exported⟩
    obtain ⟨node, nodeMember, read⟩ := List.mem_filterMap.1 statementMember
    obtain ⟨source, found, named⟩ := source_of_ofNode? read
    rw [named] at resolved
    refine ⟨same, node, nodeMember, source, found, resolved, ?_⟩
    exact (listsAs_iff read (plain.starsUnnamed unit member node nodeMember)
      (plain.passedOnOnce unit member statement statementMember)).2 exported

theorem IsPlain.tracks_iff {target : Path} {name : String} (plain : project.IsPlain target name)
    {unit : SourceUnit} (member : unit ∈ project.units) {localName : String} :
    project.Tracks target name unit localName ↔ project.Binds target name unit localName := by
  refine exists_congr fun statement => and_congr_right fun statementMember => ?_
  constructor
  · rintro ⟨_, module, resolved, outer, specifier, found, bound, follows⟩
    have once := plain.importedOnce unit member statement statementMember
    obtain ⟨specifierMember, rfl⟩ := (find?_name_eq_some_iff once).1 found
    exact ⟨module, resolved, specifier, specifierMember, bound, plain.provides_iff.2 follows⟩
  · rintro ⟨module, resolved, specifier, specifierMember, bound, provided⟩
    have once := plain.importedOnce unit member statement statementMember
    exact ⟨plain.admitted unit member statement statementMember module resolved _ provided, module,
      resolved, specifier.name, specifier, (find?_name_eq_some_iff once).2 ⟨specifierMember, rfl⟩,
      bound, plain.provides_iff.1 provided⟩

/-- In a plain project the search finds all references to a name and nothing else. -/
theorem IsPlain.mem_references_iff {declaring : Path} {name : String}
    (plain : project.IsPlain declaring.normalize name) {reference : Reference} :
    reference ∈ project.references declaring name ↔
      project.IsReference declaring name reference := by
  rw [mem_references, IsReference]
  refine exists_congr fun unit => and_congr_right fun member => exists_congr fun place =>
    and_congr_right fun placeMember => ?_
  rw [StandsFor, and_assoc, plain.tracks_iff member]

end Project

end CreatorMigration
