import CreatorMigration.Proofs.Project.References
import CreatorMigration.Proofs.Tree.Leaves

/-! # The list of references

`Project.listsReferences` says what a search for references answers: where each reference stands and
what its text is, that none is listed twice, and in which order they are listed. What brings a
reference into the list does not matter, as a unit is searched once for each of the local names that
any of its imports binds.
-/

namespace CreatorMigration

theorem Text.nodup_nameSet (names : List String) : (nameSet names).Nodup := by
  refine (Ordered.pairwise_ofList compare names).imp ?_
  rintro name _ below rfl
  have equal : compare name name = .eq := Std.ReflCmp.compare_self
  rw [equal] at below
  cases below

/-! ## Identifiers of a unit -/

/-- The identifiers of a tree are single tokens. -/
def Node.HasPlainIdentifiers (root : Node) : Prop :=
  ∀ node ∈ root.descendants, node.kind.isAnyIdentifier = true → node.children = []

instance (root : Node) : Decidable root.HasPlainIdentifiers :=
  inferInstanceAs (Decidable (∀ node ∈ root.descendants, _))

namespace SourceUnit

variable {unit : SourceUnit}

theorem wide_of_identifier (plain : unit.tree.HasPlainIdentifiers) {place : Place}
    (member : place ∈ unit.tree.places) (identifier : place.node.kind.isAnyIdentifier = true) :
    place.node.span.start < place.node.span.stop := by
  have below := Node.mem_descendants_of_mem_placesBelow member
  have childless := plain place.node below identifier
  rw [unit.tree_eq] at below
  refine Tree.wide_of_leaf below childless ?_ fun program => ?_
  · rw [Node.isComment, beq_eq_false_iff_ne]
    intro comment
    rw [comment] at identifier
    cases identifier
  · rw [program] at identifier
    cases identifier

/-- No two identifiers of a unit have one span, whatever their texts are. -/
theorem pairwise_referencesTo (plain : unit.tree.HasPlainIdentifiers) {names : List String}
    (distinct : names.Nodup) :
    (names.flatMap unit.referencesTo).Pairwise fun left right => left.span ≠ right.span := by
  rw [List.pairwise_flatMap]
  constructor
  · intro name _
    rw [referencesTo, List.pairwise_map, identifierPlaces, List.pairwise_filter]
    refine unit.isPlaced_tree.pairwise_leaves.imp_of_mem ?_
    intro left right leftMember _ inFront leftFound _ same
    simp only [Bool.and_eq_true] at leftFound
    have below := Node.mem_descendants_of_mem_placesBelow leftMember
    have stop := inFront (plain left.node below leftFound.1)
    -- a leaf that ends where the next one starts can share its span only if it has no bytes
    have wide := wide_of_identifier plain leftMember leftFound.1
    change left.node.span = right.node.span at same
    rw [same] at stop wide
    omega
  · refine distinct.imp ?_
    intro name other different left leftMember right rightMember same
    obtain ⟨place, _, _, text, rfl⟩ := Project.mem_referencesTo.1 leftMember
    obtain ⟨otherPlace, _, _, otherText, rfl⟩ := Project.mem_referencesTo.1 rightMember
    change place.node.span = otherPlace.node.span at same
    rw [textOf, Node.textIn, same] at text
    exact different (text.symm.trans otherText)

theorem isInside_iff (plain : unit.tree.HasPlainIdentifiers) {place : Place}
    (member : place ∈ unit.tree.places) (identifier : place.node.kind.isAnyIdentifier = true)
    {kind : Kind} (other : kind.isAnyIdentifier = false) :
    place.isInside kind = true ↔ ∃ node ∈ unit.tree.descendants, node.kind = kind ∧
      node.span.contains place.node.span = true := by
  rw [Place.isInside, Place.ancestorOfKind?, List.find?_isSome]
  constructor
  · rintro ⟨ancestor, around, sameKind⟩
    rcases unit.isPlaced_tree.contains_of_mem_ancestors around member with outer | inTree
    · cases outer
    · exact ⟨ancestor, inTree.1, by simpa using sameKind, inTree.2⟩
  · rintro ⟨node, inTree, rfl, contains⟩
    have below := Node.mem_descendants_of_mem_placesBelow member
    rcases unit.isPlaced_tree.mem_ancestors_of_contains (plain place.node below identifier)
      (wide_of_identifier plain member identifier) contains member inTree with own | around
    · rw [own, identifier] at other
      cases other
    · exact ⟨node, around, by simp⟩

end SourceUnit

namespace Project

variable (project : Project)

/-! ## What is listed -/

/-- An import of the unit binds the local name to one of the routes to what is declared. -/
def BindsRoute (target : Path) (name : String) (unit : SourceUnit) (localName : String) : Prop :=
  ∃ statement ∈ unit.imports, ∃ route ∈ project.routes target name,
    project.ResolvesTo unit statement.source route.module ∧
      ∃ specifier ∈ statement.named,
        specifier.name = route.name ∧ specifier.localName = localName

/-- A reference to what `target` declares as `name` stands in the unit. -/
structure Refers (target : Path) (name : String) (unit : SourceUnit) (reference : Reference) :
    Prop where
  path : reference.unit = unit.path
  isIn : reference.span.IsIn unit.text
  named : if unit.path == target then unit.slice reference.span = name
    else project.BindsRoute target name unit (unit.slice reference.span)
  inImport : reference.inImport = true ↔ ∃ node ∈ unit.tree.descendants,
    node.kind = .importStatement ∧ node.span.contains reference.span = true

/-- The declaring unit comes first, and the others follow in the order of their paths. -/
def ComesBefore (target left right : Path) : Prop :=
  (left == right) = true ∨
    (right == target) = false ∧ ((left == target) = true ∨ left.order right = .lt)

/-- The references to what `target` declares as `name`, each of them once. -/
structure ListsReferences (target : Path) (name : String) (references : List Reference) :
    Prop where
  sound : ∀ reference ∈ references, ∃ unit ∈ project.units,
    project.Refers target name unit reference
  found : ∀ unit ∈ project.units, ∀ place ∈ unit.tree.places,
    place.node.kind.isAnyIdentifier = true →
      (if unit.path == target then unit.textOf place.node = name
        else project.Tracks target name unit (unit.textOf place.node)) →
      unit.referenceAt place ∈ references
  distinct : references.Pairwise fun left right =>
    ¬((left.unit == right.unit) = true ∧ left.span = right.span)
  ordered : references.Pairwise fun left right => ComesBefore target left.unit right.unit

variable {project}

theorem unit_of_mem_referencesTo {unit : SourceUnit} {names : List String}
    {reference : Reference} (member : reference ∈ names.flatMap unit.referencesTo) :
    reference.unit = unit.path := by
  obtain ⟨_, _, found⟩ := List.mem_flatMap.1 member
  obtain ⟨_, _, _, _, rfl⟩ := mem_referencesTo.1 found
  rfl

theorem Tracks.bindsRoute {target : Path} {name localName : String} {unit : SourceUnit}
    (tracked : project.Tracks target name unit localName) :
    project.BindsRoute target name unit localName := by
  obtain ⟨statement, member, _, module, resolved, outer, specifier, found, bound, follows⟩ :=
    tracked
  obtain ⟨route, routeMember, same, rfl⟩ := exists_route_iff.2 follows
  refine ⟨statement, member, route, routeMember, ⟨module, resolved, same⟩, specifier, ?_, ?_, bound⟩
  · exact List.mem_of_find?_eq_some found
  · simpa using List.find?_some found

theorem exists_refers {declaring : Path} {name : String} {reference : Reference}
    (plain : ∀ unit ∈ project.units, unit.tree.HasPlainIdentifiers)
    (member : reference ∈ project.references declaring name) :
    ∃ unit ∈ project.units, project.Refers declaring.normalize name unit reference := by
  obtain ⟨unit, unitMember, place, placeMember, identifier, named, rfl⟩ := mem_references.1 member
  have placed : place.node.IsPlaced unit.text :=
    Node.forall_descendants (fun _ placed _ => placed.child) unit.isPlaced_tree place.node
      (Node.mem_descendants_of_mem_placesBelow placeMember)
  refine ⟨unit, unitMember, rfl, placed.isIn, ?_, ?_⟩
  · change if unit.path == declaring.normalize then unit.textOf place.node = name
      else project.BindsRoute declaring.normalize name unit (unit.textOf place.node)
    split
    · next own => rwa [if_pos own] at named
    · next other =>
      rw [if_neg other] at named
      exact named.bindsRoute
  · exact SourceUnit.isInside_iff (plain unit unitMember) placeMember identifier rfl

/-! ## The order of the list -/

/-- Two references that are listed one before the other. -/
def Precedes (target : Path) (left right : Reference) : Prop :=
  ¬((left.unit == right.unit) = true ∧ left.span = right.span) ∧
    ComesBefore target left.unit right.unit

theorem pairwise_precedes_of_unit {unit : SourceUnit} (plain : unit.tree.HasPlainIdentifiers)
    (target : Path) {names : List String} (distinct : names.Nodup) :
    (names.flatMap unit.referencesTo).Pairwise (Precedes target) := by
  refine (SourceUnit.pairwise_referencesTo plain distinct).imp_of_mem ?_
  intro left right leftMember rightMember different
  have leftUnit := unit_of_mem_referencesTo leftMember
  have rightUnit := unit_of_mem_referencesTo rightMember
  rw [Precedes, leftUnit, rightUnit]
  exact ⟨fun same => different same.2, .inl (Path.beq_iff.2 rfl)⟩

theorem precedes_of_units {target : Path} {unit other : SourceUnit} {left right : Reference}
    (leftUnit : left.unit = unit.path) (rightUnit : right.unit = other.path)
    (outside : (other.path == target) = false)
    (before : (unit.path == target) = true ∨ unit.order other = .lt) :
    Precedes target left right := by
  rw [Precedes, leftUnit, rightUnit]
  refine ⟨?_, .inr ⟨outside, before⟩⟩
  rintro ⟨same, _⟩
  rcases before with own | below
  · rw [Path.beq_congr (Path.beq_iff.1 same), outside] at own
    cases own
  · have equal : unit.order other = .eq := Path.order_eq_of_beq same
    rw [equal] at below
    cases below

theorem pairwise_precedes {declaring : Path} {name : String}
    (plain : ∀ unit ∈ project.units, unit.tree.HasPlainIdentifiers) :
    (project.references declaring name).Pairwise (Precedes declaring.normalize) := by
  have own {unit : SourceUnit} (found : unit ∈ (project.unit? declaring.normalize).toList) :
      unit ∈ project.units ∧ (unit.path == declaring.normalize) = true := by
    rwa [Option.mem_toList, unit?_normalize, unit?_eq_some_iff] at found
  have unitOf {unit : SourceUnit} {reference : Reference}
      (member : reference ∈ unit.referencesTo name) : reference.unit = unit.path :=
    unit_of_mem_referencesTo (List.mem_flatMap.2 ⟨name, List.mem_singleton.2 rfl, member⟩)
  rw [references, List.pairwise_append, List.pairwise_flatMap, List.pairwise_flatMap]
  refine ⟨⟨fun unit member => ?_, ?_⟩, ⟨fun unit member => ?_, ?_⟩, ?_⟩
  · have once := pairwise_precedes_of_unit (plain unit (own member).1) declaring.normalize
      (List.pairwise_singleton _ name)
    rwa [List.flatMap_singleton] at once
  · cases project.unit? declaring.normalize with
    | none => exact .nil
    | some unit => exact List.pairwise_singleton _ _
  · exact pairwise_precedes_of_unit (plain unit (List.mem_of_mem_filter member)) _
      (Text.nodup_nameSet _)
  · refine (project.ordered.filter _).imp_of_mem ?_
    intro left right _ rightMember before reference member other otherMember
    exact precedes_of_units (unit_of_mem_referencesTo member)
      (unit_of_mem_referencesTo otherMember) (by simpa using List.of_mem_filter rightMember)
      (.inr before)
  · intro reference member other otherMember
    obtain ⟨unit, unitMember, found⟩ := List.mem_flatMap.1 member
    obtain ⟨user, userMember, foundThere⟩ := List.mem_flatMap.1 otherMember
    exact precedes_of_units (unitOf found) (unit_of_mem_referencesTo foundThere)
      (by simpa using List.of_mem_filter userMember) (.inl (own unitMember).2)

/-- The references of a project, whatever imports, aliases and re-exports lead to the name: each of
them is sound, is listed once, and stands behind those of the declaring unit and of the units with
smaller paths. Leaves have spans of their own, so it is enough that identifiers are leaves. -/
theorem listsReferences (project : Project) (declaring : Path) (name : String)
    (plain : ∀ unit ∈ project.units, unit.tree.HasPlainIdentifiers) :
    project.ListsReferences declaring.normalize name (project.references declaring name) where
  sound _ member := exists_refers plain member
  found unit member place placeMember identifier named :=
    mem_references.2 ⟨unit, member, place, placeMember, identifier, named, rfl⟩
  distinct := (pairwise_precedes plain).imp And.left
  ordered := (pairwise_precedes plain).imp And.right

/-- A unit that reaches a class along two ways, under three names. -/
def threeAliases : Project :=
  ofSources ⟨""⟩ {}
    [(⟨"d.ts"⟩, "export class A \x7b\x7d"),
     (⟨"b.ts"⟩, "export \x7b A as B \x7d from './d';"),
     (⟨"u.ts"⟩, "import \x7b A \x7d from './d';import \x7b B as C \x7d from './b';A(C);")]

theorem listsReferences_threeAliases :
    threeAliases.ListsReferences (Path.normalize ⟨"d.ts"⟩) "A"
        (threeAliases.references ⟨"d.ts"⟩ "A") ∧
      (threeAliases.references ⟨"d.ts"⟩ "A").map (fun reference =>
        (reference.unit.text, reference.span, reference.inImport)) =
        [("d.ts", ⟨13, 14⟩, false), ("u.ts", ⟨9, 10⟩, true), ("u.ts", ⟨53, 54⟩, false),
          ("u.ts", ⟨38, 39⟩, true), ("u.ts", ⟨55, 56⟩, false)] := by
  have plain : ∀ unit ∈ threeAliases.units, unit.tree.HasPlainIdentifiers := by decide +kernel
  exact ⟨listsReferences threeAliases ⟨"d.ts"⟩ "A" plain, by decide +kernel⟩

end Project

end CreatorMigration
