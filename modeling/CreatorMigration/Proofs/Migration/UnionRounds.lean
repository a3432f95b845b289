import CreatorMigration.Proofs.Edit.Outermost
import CreatorMigration.Proofs.Migration.Rounds
import CreatorMigration.Proofs.Migration.Sites
import CreatorMigration.Proofs.Tree.Unions

/-! # Unions in a round

All members of a union are classified to the outermost union around them, so they ask for the same
edit of it, and a round applies that edit at most once.

* `RewritesUnionOnce` says what a round does to one union, however many members of it refer to what
  is replaced.
* `unions_agreed` says it of all unions in all rounds, next to what their members are.
-/

namespace CreatorMigration

open Project Update

/-! ## Members of a union -/

section

variable {unit : SourceUnit} {union member : Place}

theorem mem_places_of_mem_members (inTree : union ∈ unit.tree.places)
    (isMember : member ∈ union.members) : member ∈ unit.tree.places :=
  ((Node.sublist_memberPlaces union.node).trans (Node.sublist_placesBelow inTree)).subset isMember

/-- A union stands in a statement. -/
theorem exists_statement (inTree : union ∈ unit.tree.places)
    (isUnion : union.node.kind = .unionType) :
    ∃ statement ∈ (Tree.parse unit.text).children, union.node ∈ statement.descendants := by
  have below := Node.mem_descendants_of_mem_placesBelow inTree
  rw [Node.descendants_eq, List.mem_cons] at below
  rcases below with isRoot | below
  · rw [isRoot, unit.kind_tree] at isUnion
    cases isUnion
  · rw [← unit.tree_eq]
    exact List.mem_flatMap.1 below

/-- The members of a union stand one behind the other. -/
theorem pairwise_members (inTree : union ∈ unit.tree.places)
    (isUnion : union.node.kind = .unionType) :
    union.members.Pairwise fun left right =>
      left.node.span.start < left.node.span.stop ∧
        left.node.span.stop ≤ right.node.span.start := by
  obtain ⟨statement, inChildren, inside⟩ := exists_statement inTree isUnion
  have placed : union.node.IsPlaced unit.text :=
    Node.forall_descendants (fun _ placed _ => placed.child) unit.isPlaced_tree union.node
      (Node.mem_descendants_of_mem_placesBelow inTree)
  refine placed.pairwise_memberPlaces.imp_of_mem fun isMember _ stop => ⟨?_, stop⟩
  have below := Node.mem_descendants_of_mem_placesBelow
    ((Node.sublist_memberPlaces union.node).subset isMember)
  exact Tree.wide_of_mem_children inChildren (Node.descendants_trans inside below)

/-- A member that is an identifier is classified to the outermost union. -/
theorem ofPlace?_of_mem_members (inTree : union ∈ unit.tree.places)
    (outermost : union.IsOutermostUnion) (isMember : member ∈ union.members)
    (identifier : member.node.kind.isAnyIdentifier = true) :
    Site.ofPlace? (unit.tree.nodeAt member.node.span) = some (.unionMember union.node) := by
  have memberInTree := mem_places_of_mem_members inTree isMember
  obtain ⟨_, _, found⟩ := SourceUnit.nodeAt_of_identifier memberInTree identifier
  obtain ⟨parent, above, around, isUnion, leadsBack⟩ := outermost.exists_parent isMember
  rw [found, Site.ofPlace?, around]
  simp [isUnion, leadsBack]

/-- The edit of a union writes something else than what is there. -/
theorem changes_unionMember (inTree : union ∈ unit.tree.places)
    (isUnion : union.node.kind = .unionType) (factory : Factory) :
    ((Site.unionMember union.node).edit unit.text factory).changes unit.text = true := by
  obtain ⟨statement, inChildren, inside⟩ := exists_statement inTree isUnion
  exact bne_iff_ne.2 (Tree.unionType_ne inChildren inside isUnion).symm

end

/-! ## Rounds -/

/-- Of the edits that are left, an edit is the only one for its span, and of those that are applied
just one shares bytes with it: the edit itself, or a wider one that covers it. -/
structure AppliesOnce (edits : List Edit) (edit : Edit) : Prop where
  left : edit ∈ edits
  only : ∀ other ∈ edits, other.span = edit.span → other = edit
  covered : ∃ wide ∈ Edit.outermost edits, wide.contains edit = true ∧
    ∀ other ∈ Edit.outermost edits, other.overlaps edit = true → other = wide
  exactlyOnce : (∀ wide ∈ Edit.outermost edits, wide.contains edit = true →
    wide.span = edit.span) → (Edit.outermost edits).count edit = 1

/-- A round rewrites a union at most once, and exactly once if some members of it refer to the
target and nothing around it is rewritten. -/
structure RewritesUnionOnce (target : ReplacementTarget) (factory : Factory)
    (before after : Project) (unit : SourceUnit) (union : Place) : Prop where
  distinct : union.members.Pairwise fun left right =>
    left.node.span.start < left.node.span.stop ∧ left.node.span.stop ≤ right.node.span.start
  classified : ∀ member ∈ union.members, member.node.kind.isAnyIdentifier = true →
    Site.ofPlace? (unit.tree.nodeAt member.node.span) = some (.unionMember union.node) ∧
      classRule factory unit (unit.tree.nodeAt member.node.span) =
        some ((Site.unionMember union.node).edit unit.text factory)
  atMostOnce : (Edit.outermost (target.editsLeft (classRule factory) before unit)).countP
    (fun edit => edit.span = union.node.span) ≤ 1
  applies : ∀ member ∈ union.members, member.node.kind.isAnyIdentifier = true →
    (∃ use ∈ target.usesIn before unit, use.span = member.node.span) →
      AppliesOnce (target.editsLeft (classRule factory) before unit)
        ((Site.unionMember union.node).edit unit.text factory) ∧
      (unit.path, Edit.outermost (target.editsLeft (classRule factory) before unit)) ∈
        target.batches (classRule factory) before ∧
      ∃ changed, after.unit? unit.path = some changed ∧
        WritesEdit (Edit.outermost (target.editsLeft (classRule factory) before unit)) unit.text
          changed.text ((Site.unionMember union.node).edit unit.text factory)

/-- A round takes each union of the project as one. -/
def RewritesUnionsOnce (target : ReplacementTarget) (factory : Factory) (before after : Project) :
    Prop :=
  ∀ unit ∈ before.units, ∀ union ∈ unit.tree.places, union.IsOutermostUnion →
    RewritesUnionOnce target factory before after unit union

theorem nodup_outermost (edits : List Edit) :
    (Edit.outermost edits).Pairwise fun first second => first.span ≠ second.span := by
  obtain ⟨dropped, choice⟩ := Edit.exists_isChoice edits
  exact choice.apart.imp And.right

theorem countP_span_outermost_le_one (edits : List Edit) (span : Span) :
    (Edit.outermost edits).countP (fun edit => edit.span = span) ≤ 1 := by
  have distinct : ((Edit.outermost edits).map Edit.span).Nodup :=
    List.pairwise_map.2 (nodup_outermost edits)
  have once := List.nodup_iff_count_le_one.1 distinct span
  rwa [List.count, List.countP_map] at once

section

variable {target : ReplacementTarget} {factory : Factory} {project between : Project}
  {unit : SourceUnit}

/-- An edit that is left for a class is applied once, unless a wider one covers it. -/
theorem appliesOnce_of_mem_editsLeft (member : unit ∈ project.units) {edit : Edit}
    (left : edit ∈ target.editsLeft (classRule factory) project unit) :
    AppliesOnce (target.editsLeft (classRule factory) project unit) edit := by
  obtain ⟨wide, wideMember, wider, alone⟩ :=
    Edit.exists_kept_around (nested_editsLeft member) left
  refine ⟨left, fun other otherLeft same => eq_of_mem_editsLeft member otherLeft left same,
    ⟨wide, wideMember, wider, alone⟩, fun noWider => ?_⟩
  have wideLeft := Edit.mem_of_mem_outermost wideMember
  obtain rfl := eq_of_mem_editsLeft member wideLeft left (noWider wide wideMember wider)
  have distinct : (Edit.outermost (target.editsLeft (classRule factory) project unit)).Nodup :=
    (nodup_outermost _).imp fun different same => different (congrArg Edit.span same)
  exact List.count_eq_one_of_mem distinct wideMember

theorem rewritesUnionsOnce_of_applyBatches (normal : project.HasNormalPaths)
    (applied : applyBatches (target.batches (classRule factory) project) project =
      .ok () between) : RewritesUnionsOnce target factory project between := by
  intro unit inProject union inTree outermost
  have classified {member : Place} (isMember : member ∈ union.members)
      (identifier : member.node.kind.isAnyIdentifier = true) :
      Site.ofPlace? (unit.tree.nodeAt member.node.span) = some (.unionMember union.node) ∧
        classRule factory unit (unit.tree.nodeAt member.node.span) =
          some ((Site.unionMember union.node).edit unit.text factory) := by
    have found := ofPlace?_of_mem_members inTree outermost isMember identifier
    exact ⟨found, by rw [classRule, found]; rfl⟩
  refine ⟨pairwise_members inTree outermost.isUnion, fun _ => classified,
    countP_span_outermost_le_one _ _, fun member isMember identifier ⟨use, refers, stands⟩ => ?_⟩
  have left : (Site.unionMember union.node).edit unit.text factory ∈
      target.editsLeft (classRule factory) project unit := by
    refine List.mem_filter.2 ⟨List.mem_filterMap.2 ⟨member.node.span, ?_, ?_⟩, ?_⟩
    · exact List.mem_map.2 ⟨use, refers, stands⟩
    · exact (classified isMember identifier).2
    · exact changes_unionMember inTree outermost.isUnion factory
  exact ⟨appliesOnce_of_mem_editsLeft inProject left,
    mem_batches_of_editsLeft inProject (List.ne_nil_of_mem left),
    exists_writesEdit normal applied inProject left⟩

theorem ReplacementRounds.eachRound_unions {rounds : List (List (Path × List Edit))}
    {result : Project}
    (run : ReplacementRounds target (classRule factory) rounds project result)
    (normal : project.HasNormalPaths) :
    EachRound target (classRule factory) (RewritesUnionsOnce target factory) project result := by
  induction run with
  | done => exact .done
  | round _ applied _ inductionHypothesis =>
    have normalThen := (samePaths_applyBatches applied).hasNormalPaths normal
    exact .round applied (rewritesUnionsOnce_of_applyBatches normal applied)
      (inductionHypothesis normalThen)

end

/-- All members of a union agree on it. In every tree the members that are listed going down from an
outermost union are the types from which going up leads back to it. So a round, which never fails,
classifies all members that are identifiers to that union, with one edit, and applies at most one
edit to it: exactly one, if a member refers to the target and no outer edit covers the union. -/
theorem unions_agreed (target : ReplacementTarget) (factory : Factory) {project : Project}
    (normal : project.HasNormalPaths) (bound : Nat) :
    (∀ root : Node, ∀ union ∈ root.places, union.IsOutermostUnion → union.ListsMembers root) ∧
    (∃ round between, replaceRound target (classRule factory) project = .ok round between ∧
      round.count = editCount (target.batches (classRule factory) project) ∧
      RewritesUnionsOnce target factory project between) ∧
    ∃ outcome rewritten rounds,
      replaceRounds target (classRule factory) bound project = .ok outcome rewritten ∧
      ReplacementRounds target (classRule factory) rounds project rewritten ∧
      outcome.count = (rounds.map editCount).sum ∧
      EachRound target (classRule factory) (RewritesUnionsOnce target factory) project
        rewritten := by
  have fits := fits_classRule factory
  refine ⟨fun root union inTree outermost => outermost.listsMembers inTree, ?_, ?_⟩
  · obtain ⟨round, between, ran⟩ := not_fails_iff.1 (not_fails_replaceRound fits normal)
    exact ⟨round, between, ran, (replaceRound_outcome ran).2,
      rewritesUnionsOnce_of_applyBatches normal (applyBatches_of_replaceRound ran)⟩
  · obtain ⟨outcome, rewritten, ran⟩ :=
      not_fails_iff.1 (not_fails_replaceRounds fits normal bound)
    obtain ⟨rounds, run, _, count, _⟩ := exists_replacementRounds ran
    exact ⟨outcome, rewritten, rounds, ran, run, count, run.eachRound_unions normal⟩

/-- A union behind a leading bar, with a class as its first and as its last member. -/
def repeatedMember : Project :=
  ofSources ⟨""⟩ {}
    [(⟨"d.ts"⟩, "export class C\x7b\x7d"), (⟨"u.ts"⟩, "import\x7bC\x7dfrom'./d';type T=|C|P|C")]

/-- Two of three members refer to the class, and a single edit is made. -/
theorem unions_agreed_repeatedMember :
    repeatedMember.HasNormalPaths ∧
    (∃ unit ∈ repeatedMember.units, ∃ union ∈ unit.tree.places,
      union.IsOutermostUnion ∧ union.ListsMembers unit.tree ∧ union.members.length = 3 ∧
      union.members.countP (fun member => member.node.kind.isAnyIdentifier &&
        (classC.usesIn repeatedMember unit).any fun use => use.span = member.node.span) = 2) ∧
    ∃ round between, replaceRound classC (classRule ⟨"c", none⟩) repeatedMember =
        .ok round between ∧
      round.count = 1 ∧ RewritesUnionsOnce classC ⟨"c", none⟩ repeatedMember between := by
  have normal : repeatedMember.HasNormalPaths := hasNormalPaths_ofSources _ _ _
  have reads : ∃ unit ∈ repeatedMember.units, ∃ union ∈ unit.tree.places,
      (union.node.kind = .unionType ∧ ∀ parent ∈ union.parent?, parent.kind ≠ .unionType) ∧
      union.members.length = 3 ∧
      union.members.countP (fun member => member.node.kind.isAnyIdentifier &&
        (classC.usesIn repeatedMember unit).any fun use => use.span = member.node.span) = 2 := by
    decide +kernel
  have single : editCount (classC.batches (classRule ⟨"c", none⟩) repeatedMember) = 1 := by
    decide +kernel
  obtain ⟨lists, ⟨round, between, ran, count, once⟩, _⟩ :=
    unions_agreed classC ⟨"c", none⟩ normal roundLimit
  obtain ⟨unit, inProject, union, inTree, ⟨isUnion, noOuter⟩, members, refer⟩ := reads
  have outermost : union.IsOutermostUnion := ⟨isUnion, noOuter⟩
  exact ⟨normal, ⟨unit, inProject, union, inTree, outermost, lists _ union inTree outermost,
    members, refer⟩, round, between, ran, count.trans single, once⟩

end CreatorMigration
