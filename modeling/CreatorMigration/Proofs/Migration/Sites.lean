import CreatorMigration.Proofs.Migration.WrittenSites
import CreatorMigration.Proofs.Project.Listing
import CreatorMigration.Proofs.Tree.Laminar
import CreatorMigration.Proofs.Tree.Members
import CreatorMigration.Proofs.Tree.Bars

/-! # Where sites stand

The edit of a site replaces a node around an identifier, or the identifier itself. No two sites of
a unit have the same bytes (`Site.eq_of_span_eq`), so the edits that are left in a unit are told
apart by their spans, and two of them that share bytes lie in each other.
-/

namespace CreatorMigration

/-! ## Identifiers -/

/-- In every unit identifiers are single tokens. -/
theorem SourceUnit.hasPlainIdentifiers (unit : SourceUnit) : unit.tree.HasPlainIdentifiers := by
  intro node member
  rw [unit.tree_eq] at member
  exact (Tree.allFormed_parse unit.text node member).plain

/-! ## Sites -/

namespace Site

/-- The node that the edit of a site replaces. -/
def node : Site → Node
  | construction expression => expression
  | unionMember union => union
  | callArgument identifier => identifier

theorem span_edit (text : String) (factory : Factory) (site : Site) :
    (site.edit text factory).span = site.node.span := by
  cases site <;> rfl

/-- Where the node of a site stands, seen from the place of an identifier. -/
inductive StandsAt (place : Place) : Place → Site → Prop where
  | construction {own : Place} (isNew : own.node.kind = .newExpression)
      (split : place.ancestors = own.node :: own.ancestors) :
      StandsAt place own (.construction own.node)
  | unionMember {own : Place} {between : List Node} (outermost : own.IsOutermostUnion)
      (split : place.ancestors = between ++ own.node :: own.ancestors)
      (unions : ∀ node ∈ between, node.kind = .unionType) :
      StandsAt place own (.unionMember own.node)
  | callArgument (isIdentifier : place.node.kind = .identifier)
      (isArgument : ∀ parent ∈ place.parent?, parent.kind = .arguments) :
      StandsAt place place (.callArgument place.node)

/-- The unions between a union and the outermost one. -/
theorem exists_outermostUnion {parent : Node} (above : List Node)
    (isUnion : parent.kind = .unionType) :
    ∃ between outer, parent :: above = between ++ parent.outermostUnion above :: outer ∧
      (∀ node ∈ between, node.kind = .unionType) ∧
      (parent.outermostUnion above).kind = .unionType ∧
      ∀ ancestor ∈ outer.head?, ancestor.kind ≠ .unionType := by
  induction above generalizing parent with
  | nil => exact ⟨[], [], rfl, by simp, isUnion, by simp⟩
  | cons ancestor above inductionHypothesis =>
    rw [Node.outermostUnion]
    split
    · next isOuter =>
      obtain ⟨between, outer, split, unions, others⟩ := inductionHypothesis isOuter
      exact ⟨parent :: between, outer, by rw [split]; rfl,
        List.forall_mem_cons.2 ⟨isUnion, unions⟩, others⟩
    · next noOuter =>
      refine ⟨[], ancestor :: above, rfl, by simp, isUnion, ?_⟩
      rintro _ ⟨⟩
      exact noOuter

theorem exists_standsAt {root : Node} {place : Place} {site : Site} (member : place ∈ root.places)
    (found : ofPlace? place = some site) :
    ∃ own ∈ root.places, own.node = site.node ∧ StandsAt place own site := by
  -- every ancestor of a place is the node of a place of the same tree
  have placeOf {between outer : List Node} {ancestor : Node}
      (split : place.ancestors = between ++ ancestor :: outer) :=
    Node.exists_place_of_ancestors member split
  unfold ofPlace? at found
  cases around : place.ancestors with
  | nil => simp [around] at found
  | cons parent above =>
    simp only [around] at found
    split at found
    · next construction =>
      cases found
      have split : place.ancestors = [] ++ parent :: above := around
      obtain ⟨own, ownMember, rfl, rfl⟩ := placeOf split
      exact ⟨own, ownMember, rfl, .construction construction.1 around⟩
    · split at found
      · next isUnion =>
        cases found
        obtain ⟨between, outer, split, unions, isUnionThen, noOuter⟩ :=
          exists_outermostUnion above isUnion
        rw [← around] at split
        obtain ⟨own, ownMember, same, rfl⟩ := placeOf split
        refine ⟨own, ownMember, same, ?_⟩
        rw [← same] at split isUnionThen ⊢
        exact .unionMember ⟨isUnionThen, noOuter⟩ split unions
      · split at found
        · next isArgument =>
          cases found
          cases above with
          | nil => cases isArgument
          | cons call rest =>
            simp only [isCallArgument, Bool.and_eq_true, beq_iff_eq] at isArgument
            refine ⟨place, member, rfl, .callArgument isArgument.1.1 ?_⟩
            simp [Place.parent?, around, isArgument.1.2]
        · cases found

/-! ## Sites with the same bytes -/

/-- A site of a tree, with the place of its identifier and the place of what is replaced. -/
structure IsIn (root : Node) (place own : Place) (site : Site) : Prop where
  member : place ∈ root.places
  childless : place.node.children = []
  wide : place.node.span.start < place.node.span.stop
  ownMember : own ∈ root.places
  stands : StandsAt place own site

section

variable {text : String} {root : Node} {place other own ownOther : Place} {site siteOther : Site}

/-- A site is told by the node that it replaces. -/
def ofNode (node : Node) : Site :=
  if node.kind = .newExpression then construction node
  else if node.kind = .unionType then unionMember node
  else callArgument node

theorem StandsAt.eq_ofNode (stands : StandsAt place own site) : site = ofNode own.node := by
  cases stands with
  | construction isNew => simp [ofNode, isNew]
  | unionMember outermost => simp [ofNode, outermost.isUnion]
  | callArgument isIdentifier => simp [ofNode, isIdentifier]

theorem StandsAt.eq_or_isBelow (stands : StandsAt place own site) :
    own = place ∧ (∀ parent ∈ place.parent?, parent.kind = .arguments) ∨ place.IsBelow own := by
  cases stands with
  | construction _ split => exact .inr ⟨[], split⟩
  | unionMember _ split _ => exact .inr ⟨_, split⟩
  | callArgument _ isArgument => exact .inl ⟨rfl, isArgument⟩

/-- What is replaced at a site has the bytes of the identifier. -/
theorem IsIn.contains (isIn : IsIn root place own site) (placed : root.IsPlaced text) :
    own.node.span.contains place.node.span = true := by
  rcases isIn.stands.eq_or_isBelow with ⟨rfl, _⟩ | below
  · exact Span.contains_iff.2 ⟨Nat.le_refl _, Nat.le_refl _⟩
  · exact placed.contains_of_isBelow isIn.member below

/-- An identifier that is replaced itself is no argument at another site. -/
theorem IsIn.isBelow_of_leaf (isIn : IsIn root place own site)
    (childless : own.node.children = []) :
    own = place ∧ ∀ parent ∈ place.parent?, parent.kind = .arguments :=
  isIn.stands.eq_or_isBelow.resolve_right (Node.not_isBelow_of_leaf isIn.member childless)

/-- What stands right below one of some unions stands below a union. -/
theorem exists_head?_of_unions {between : List Node} {union : Node} (outer : List Node)
    (unions : ∀ node ∈ between, node.kind = .unionType) (isUnion : union.kind = .unionType) :
    ∃ parent ∈ (between ++ union :: outer).head?, parent.kind = .unionType := by
  cases between with
  | nil => exact ⟨union, rfl, isUnion⟩
  | cons first between => exact ⟨first, rfl, unions first List.mem_cons_self⟩

/-- What is replaced at a site lies in nothing else with the same bytes that is replaced. -/
theorem IsIn.not_isBelow (placed : root.IsPlaced text) (isIn : IsIn root place own site)
    (isInOther : IsIn root other ownOther siteOther)
    (same : own.node.span = ownOther.node.span) : ¬ own.IsBelow ownOther := by
  rintro ⟨inner, below⟩
  have contains : own.node.span.contains other.node.span = true :=
    same ▸ isInOther.contains placed
  have inOwn := placed.isBelow_of_contains isInOther.member isIn.ownMember isInOther.childless
    isInOther.wide contains
  cases isInOther.stands with
  | construction isNew split =>
    rcases inOwn with rfl | ⟨between, inOwn⟩
    · have isArgument := (isIn.isBelow_of_leaf isInOther.childless).2 ownOther.node
      obtain ⟨rfl, _⟩ := isIn.isBelow_of_leaf isInOther.childless
      have kind := isArgument (by rw [Place.parent?, split]; rfl)
      rw [isNew] at kind
      cases kind
    · have lengths := congrArg List.length (inOwn.symm.trans split)
      rw [below] at lengths
      simp only [List.length_append, List.length_cons] at lengths
      omega
  | @unionMember _ between outermost split unions =>
    rcases inOwn with rfl | ⟨more, inOwn⟩
    · obtain ⟨parent, isParent, isUnion⟩ :=
        exists_head?_of_unions ownOther.ancestors unions outermost.isUnion
      obtain ⟨rfl, isArgument⟩ := isIn.isBelow_of_leaf isInOther.childless
      have kind := isArgument parent (by rw [Place.parent?, split]; exact isParent)
      rw [isUnion] at kind
      cases kind
    -- what lies between the identifier and the union are unions, so none of it is outermost
    · have between : between = more ++ own.node :: inner := by
        rw [split, below] at inOwn
        refine List.append_cancel_right (inOwn.trans ?_)
        rw [List.append_assoc, List.cons_append]
      rw [between, List.forall_mem_append, List.forall_mem_cons] at unions
      obtain ⟨parent, isParent, isUnion⟩ :=
        exists_head?_of_unions ownOther.ancestors unions.2.2 outermost.isUnion
      rw [← below] at isParent
      cases isIn.stands with
      | construction isNew =>
        rw [unions.2.1] at isNew
        cases isNew
      | unionMember outermostOwn => exact outermostOwn.outermost parent isParent isUnion
      | callArgument =>
        exact Node.not_isBelow_of_leaf isInOther.member isIn.childless ⟨more, inOwn⟩
  | callArgument =>
    exact Node.not_isBelow_of_leaf isIn.ownMember isInOther.childless ⟨inner, below⟩

/-- Sites of a tree that replace the same bytes are one site. -/
theorem IsIn.eq_of_span_eq (placed : root.IsPlaced text) (isIn : IsIn root place own site)
    (isInOther : IsIn root other ownOther siteOther)
    (same : own.node.span = ownOther.node.span) : site = siteOther := by
  have bytes := Span.contains_iff.1 (isIn.contains placed)
  have wide := isIn.wide
  have overlap : own.node.span.overlaps ownOther.node.span = true := by
    rw [← same]
    simp only [Span.overlaps, Bool.and_eq_true, decide_eq_true_eq]
    omega
  cases placed.nests isIn.ownMember isInOther.ownMember overlap with
  | same eq =>
    rw [isIn.stands.eq_ofNode, isInOther.stands.eq_ofNode, eq]
  | below isBelow => exact absurd isBelow (isIn.not_isBelow placed isInOther same)
  | around isBelow => exact absurd isBelow (isInOther.not_isBelow placed isIn same.symm)

end

end Site

/-! ## Edits of sites -/

namespace SourceUnit

variable {unit : SourceUnit} {place : Place}

/-- An identifier is found by its bytes, as a token with bytes of its own. -/
theorem nodeAt_of_identifier (member : place ∈ unit.tree.places)
    (identifier : place.node.kind.isAnyIdentifier = true) :
    place.node.children = [] ∧ place.node.span.start < place.node.span.stop ∧
      unit.tree.nodeAt place.node.span = place := by
  have plain := unit.hasPlainIdentifiers
  have childless := plain place.node (Node.mem_descendants_of_mem_placesBelow member) identifier
  have wide := wide_of_identifier plain member identifier
  exact ⟨childless, wide, unit.isPlaced_tree.nodeAt_of_leaf member childless
    (Node.isNamed_of_isAnyIdentifier identifier) wide⟩

end SourceUnit

section

variable {target : ReplacementTarget} {factory : Factory} {project : Project} {unit : SourceUnit}

open Site (IsIn)

/-- Each edit that is left for a class is the edit of a site. -/
theorem exists_isIn_of_mem_editsLeft (member : unit ∈ project.units) {edit : Edit}
    (left : edit ∈ target.editsLeft (classRule factory) project unit) :
    ∃ place own site, IsIn unit.tree place own site ∧ edit = site.edit unit.text factory ∧
      edit.span = own.node.span := by
  obtain ⟨use, refers, _, stands, ruled, _⟩ := ReplacementTarget.mem_editsLeft.1 left
  obtain ⟨other, otherMember, place, placeMember, identifier, _, rfl⟩ :=
    ReplacementTarget.mem_references_iff.1 refers
  obtain rfl : other = unit := project.eq_of_path_beq otherMember member stands
  obtain ⟨childless, wide, found⟩ := SourceUnit.nodeAt_of_identifier placeMember identifier
  rw [SourceUnit.referenceAt, found] at ruled
  obtain ⟨site, classified, rfl⟩ := Option.map_eq_some_iff.1 ruled
  obtain ⟨own, ownMember, ownNode, standsAt⟩ := Site.exists_standsAt placeMember classified
  refine ⟨place, own, site, ⟨placeMember, childless, wide, ownMember, standsAt⟩, rfl, ?_⟩
  rw [Site.span_edit, ownNode]

/-- No two edits that are left in a unit for a class have one span. -/
theorem eq_of_mem_editsLeft (member : unit ∈ project.units) {first second : Edit}
    (firstLeft : first ∈ target.editsLeft (classRule factory) project unit)
    (secondLeft : second ∈ target.editsLeft (classRule factory) project unit)
    (same : first.span = second.span) : first = second := by
  obtain ⟨place, own, site, isIn, rfl, span⟩ := exists_isIn_of_mem_editsLeft member firstLeft
  obtain ⟨_, ownThen, siteThen, isInThen, rfl, spanThen⟩ :=
    exists_isIn_of_mem_editsLeft member secondLeft
  rw [isIn.eq_of_span_eq unit.isPlaced_tree isInThen (span.symm.trans (same.trans spanThen))]

/-- The edits that are left in a unit for a class lie in each other where they share bytes. -/
theorem nested_editsLeft (member : unit ∈ project.units) :
    Edit.Nested (target.editsLeft (classRule factory) project unit) := by
  intro first firstLeft second secondLeft overlap
  obtain ⟨place, own, site, isIn, _, span⟩ := exists_isIn_of_mem_editsLeft member firstLeft
  obtain ⟨_, ownThen, siteThen, isInThen, _, spanThen⟩ :=
    exists_isIn_of_mem_editsLeft member secondLeft
  rw [Edit.overlaps, span, spanThen] at overlap
  rw [Edit.contains, Edit.contains, span, spanThen]
  cases unit.isPlaced_tree.nests isIn.ownMember isInThen.ownMember overlap with
  | same eq => exact .inl (eq ▸ Span.contains_refl _)
  | below isBelow => exact .inr (unit.isPlaced_tree.contains_of_isBelow isIn.ownMember isBelow)
  | around isBelow => exact .inl (unit.isPlaced_tree.contains_of_isBelow isInThen.ownMember isBelow)

end

end CreatorMigration
