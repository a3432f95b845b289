import CreatorMigration.Proofs.Edit.Nesting
import CreatorMigration.Proofs.Migration.Footprint
import CreatorMigration.Proofs.Tree.NodeAt
import Mathlib.Algebra.GroupWithZero.Nat

/-! # Sites that are left

`replaceReferences` rewrites the sites of a class from the outside to the inside, one layer a round,
and then aligns the imports of the units that it changed.

* `ReplacementRounds` lists what the rounds apply. With fewer rounds than `roundLimit` no site is
  left for another one (`exists_replacementRounds`).
* Rounds that write no sites of their own use up a layer each (`noSiteLeft_of_nestsWithin`), so
  `roundLimit` layers are not too many.
* An alignment that keeps the code and imports the class under no further name brings no site back
  (`NoSiteLeft.of_keepsUses`).
* `exists_replacesSites` puts these together.
-/

namespace CreatorMigration

open List (Forall₂)
open Node Project Update

/-! ## Sites at alike places -/

section

variable {text textThen : String}

mutual

theorem forall₂_unionMembers :
    ∀ {node other : Node}, Alike text textThen node other →
      Forall₂ (Alike text textThen) node.unionMembers other.unionMembers
  | ⟨_, _, _, _⟩, ⟨_, _, _, _⟩, same => by
    rw [unionMembers, unionMembers]
    obtain rfl := same.kind_eq
    split
    · exact forall₂_unionMembersOfAll same.children
    · exact .cons same .nil

theorem forall₂_unionMembersOfAll :
    ∀ {nodes others : List Node}, Forall₂ (Alike text textThen) nodes others →
      Forall₂ (Alike text textThen) (unionMembersOfAll nodes) (unionMembersOfAll others)
  | [], [], _ => .nil
  | first :: _, other :: _, .cons same rest => by
    have kept : (first.isNamed && !first.isComment) = (other.isNamed && !other.isComment) := by
      simp only [isNamed, isComment, same.kind_eq]
    rw [unionMembersOfAll, unionMembersOfAll, kept]
    refine List.rel_append ?_ (forall₂_unionMembersOfAll rest)
    split
    · exact forall₂_unionMembers same
    · exact .nil

end

theorem Node.Alike.callArguments_head? {call other : Node} (same : Alike text textThen call other) :
    call.callArguments.head?.map (textIn text) = other.callArguments.head?.map (textIn textThen) := by
  have arguments := same.rel_child? .arguments
  unfold callArguments
  generalize call.child? .arguments = list at arguments
  generalize other.child? .arguments = otherList at arguments
  cases arguments with
  | none => rfl
  | some alike =>
    have parts := textIn_map_eq alike.forall₂_namedParts
    rw [Option.map_some, Option.map_some, Option.getD_some, Option.getD_some, ← List.head?_map,
      ← List.head?_map, parts]

theorem Node.Alike.outermostUnion {union other : Node} {above aboveThen : List Node}
    (same : Alike text textThen union other)
    (around : Forall₂ (AlikeUpToRoot text textThen) above aboveThen) :
    Alike text textThen (union.outermostUnion above) (other.outermostUnion aboveThen) := by
  induction around generalizing union other with
  | nil => exact same
  | @cons ancestor ancestorThen _ _ alike _ inductionHypothesis =>
    rw [Node.outermostUnion, Node.outermostUnion, ← alike.kind_eq]
    split
    · next isUnion =>
      refine inductionHypothesis (alike.resolve_right fun root => ?_)
      rw [isUnion] at root
      cases root.1
    · exact same

/-- The edits of the sites change their texts, or neither does. -/
def SameChange (text textThen : String) (site other : Site) : Prop :=
  ∀ factory, (site.edit text factory).changes text = (other.edit textThen factory).changes textThen

theorem sameChange_construction {expression other : Node}
    (same : Alike text textThen expression other) :
    SameChange text textThen (.construction expression) (.construction other) := by
  intro factory
  simp only [Site.edit, Edit.changes, same.callArguments_head?]
  exact congrArg (· != _) same.textIn_eq

theorem sameChange_unionMember {union other : Node} (same : Alike text textThen union other) :
    SameChange text textThen (.unionMember union) (.unionMember other) := by
  intro factory
  have made : Site.unionType text union = Site.unionType textThen other := by
    have texts := congrArg (List.map Text.decapitalize)
      (textIn_map_eq (forall₂_unionMembers same))
    rw [List.map_map, List.map_map] at texts
    exact congrArg typeMadeBy texts
  simp only [Site.edit, Edit.changes, made]
  exact congrArg (· != _) same.textIn_eq

theorem sameChange_callArgument {identifier other : Node}
    (same : Alike text textThen identifier other) :
    SameChange text textThen (.callArgument identifier) (.callArgument other) :=
  fun _ => congrArg (· != _) same.textIn_eq

theorem isCallArgument_eq {node other : Node} {around aroundThen : List Node}
    (same : Alike text textThen node other)
    (sameAround : Forall₂ (AlikeUpToRoot text textThen) around aroundThen) :
    Site.isCallArgument node around = Site.isCallArgument other aroundThen := by
  cases sameAround with
  | nil => rfl
  | cons sameList sameAbove =>
    cases sameAbove with
    | nil => rfl
    | cons sameCall _ =>
      simp only [Site.isCallArgument, isCall, same.kind_eq, sameList.kind_eq, sameCall.kind_eq]

/-- Alike places are sites of one kind, and the edits of both change their texts or neither does. -/
theorem exists_site_of_alikeWithin {place other : Place}
    (same : AlikeWithin text textThen place other) {site : Site}
    (found : Site.ofPlace? place = some site) :
    ∃ siteThen, Site.ofPlace? other = some siteThen ∧ SameChange text textThen site siteThen := by
  obtain ⟨node, before, ancestors⟩ := place
  obtain ⟨nodeThen, beforeThen, ancestorsThen⟩ := other
  obtain ⟨sameNode, around⟩ := same
  dsimp only at sameNode around
  have sameTest := isCallArgument_eq sameNode around
  unfold Site.ofPlace? at found ⊢
  cases around with
  | nil => cases found
  | @cons parent parentThen above aboveThen sameParent sameAbove =>
    dsimp only at found ⊢
    rw [← sameParent.kind_eq, ← sameNode.role_eq, ← sameTest]
    -- only the root may differ, and the root is not of a kind that makes a site
    have inner (kind : parent.kind ≠ .program) : Alike text textThen parent parentThen :=
      sameParent.resolve_right fun root => kind root.1
    split at found
    · next construction =>
      cases found
      rw [if_pos construction]
      exact ⟨_, rfl, sameChange_construction (inner (by rw [construction.1]; decide))⟩
    · next noConstruction =>
      rw [if_neg noConstruction]
      split at found
      · next isUnion =>
        cases found
        rw [if_pos isUnion]
        have union := (inner (by rw [isUnion]; decide)).outermostUnion sameAbove
        exact ⟨_, rfl, sameChange_unionMember union⟩
      · next noUnion =>
        rw [if_neg noUnion]
        split at found
        · next isArgument =>
          cases found
          rw [if_pos isArgument]
          exact ⟨_, rfl, sameChange_callArgument sameNode⟩
        · cases found

end

/-! ## Uses -/

namespace ReplacementTarget

variable (target : ReplacementTarget) (rule : ReplacementRule)

/-- The names that stand for the target in a unit. -/
def namesIn (project : Project) (unit : SourceUnit) : List String :=
  if unit.path == target.declaring.normalize then [target.name]
  else project.localsFor (project.routes target.declaring.normalize target.name) unit

/-- The uses of the target in a unit that are to be replaced. -/
def usesIn (project : Project) (unit : SourceUnit) : List Reference :=
  ((project.references target.declaring target.name).filter target.includes).filter
    fun use => use.unit == unit.path

/-- What the rule gives for the uses in a unit, but for edits that change nothing. -/
def editsLeft (project : Project) (unit : SourceUnit) : List Edit :=
  (((target.usesIn project unit).map Reference.span).filterMap fun use =>
    rule unit (unit.tree.nodeAt use)).filter (Edit.changes unit.text)

/-- Whether a use of the class is a site that is still to be changed. -/
structure IsSiteLeft (factory : Factory) (project : Project) (unit : SourceUnit)
    (use : Reference) (site : Site) : Prop where
  inProject : unit ∈ project.units
  refers : use ∈ project.references target.declaring target.name
  outside : target.includes use = true
  stands : (use.unit == unit.path) = true
  classified : Site.ofPlace? (unit.tree.nodeAt use.span) = some site
  changes : (site.edit unit.text factory).changes unit.text = true

def NoSiteLeft (factory : Factory) (project : Project) : Prop :=
  ∀ unit use site, ¬ target.IsSiteLeft factory project unit use site

variable {target rule} {project : Project}

theorem mem_namesIn_iff {unit : SourceUnit} {name : String} :
    name ∈ target.namesIn project unit ↔
      if unit.path == target.declaring.normalize then name = target.name
      else project.Tracks target.declaring.normalize target.name unit name := by
  unfold namesIn
  split
  · exact List.mem_singleton
  · exact mem_localsFor

theorem mem_references_iff {use : Reference} :
    use ∈ project.references target.declaring target.name ↔
      ∃ unit ∈ project.units, ∃ place ∈ unit.tree.places,
        place.node.kind.isAnyIdentifier = true ∧
          unit.textOf place.node ∈ target.namesIn project unit ∧ use = unit.referenceAt place := by
  simp only [mem_references, mem_namesIn_iff]

theorem mem_editsLeft {unit : SourceUnit} {edit : Edit} :
    edit ∈ target.editsLeft rule project unit ↔
      ∃ use ∈ project.references target.declaring target.name, target.includes use = true ∧
        (use.unit == unit.path) = true ∧ rule unit (unit.tree.nodeAt use.span) = some edit ∧
        edit.changes unit.text = true := by
  simp only [editsLeft, usesIn, List.mem_filter, List.mem_filterMap, List.mem_map]
  constructor
  · rintro ⟨⟨_, ⟨use, ⟨⟨refers, included⟩, stands⟩, rfl⟩, ruled⟩, changes⟩
    exact ⟨use, refers, included, stands, ruled, changes⟩
  · rintro ⟨use, refers, included, stands, ruled, changes⟩
    exact ⟨⟨_, ⟨use, ⟨⟨refers, included⟩, stands⟩, rfl⟩, ruled⟩, changes⟩

/-- The sites that are left are those that an edit is left for. -/
theorem noSiteLeft_iff {factory : Factory} :
    target.NoSiteLeft factory project ↔
      ∀ unit ∈ project.units, target.editsLeft (classRule factory) project unit = [] := by
  constructor
  · intro none unit member
    refine List.eq_nil_iff_forall_not_mem.2 fun edit left => ?_
    obtain ⟨use, refers, included, stands, ruled, changes⟩ := mem_editsLeft.1 left
    obtain ⟨site, classified, rfl⟩ := Option.map_eq_some_iff.1 ruled
    exact none unit use site ⟨member, refers, included, stands, classified, changes⟩
  · intro none unit use site left
    have member : site.edit unit.text factory ∈
        target.editsLeft (classRule factory) project unit :=
      mem_editsLeft.2 ⟨use, left.refers, left.outside, left.stands,
        Option.map_eq_some_iff.2 ⟨site, left.classified, rfl⟩, left.changes⟩
    rw [none unit left.inProject] at member
    cases member

end ReplacementTarget

/-! ## Rounds -/

theorem Project.SamePaths.exists_unit {before after : Project} (same : SamePaths before after)
    {unit : SourceUnit} (member : unit ∈ after.units) :
    ∃ old ∈ before.units, old.path = unit.path := by
  have listed : unit.path ∈ before.paths := same.paths_eq ▸ List.mem_map_of_mem member
  obtain ⟨old, oldMember, path⟩ := List.mem_map.1 listed
  exact ⟨old, oldMember, path⟩

/-- The batches that rounds of replacements apply, each round to what the one before it left. -/
inductive ReplacementRounds (target : ReplacementTarget) (rule : ReplacementRule) :
    List (List (Path × List Edit)) → Project → Project → Prop where
  | done {project : Project} : ReplacementRounds target rule [] project project
  | round {rounds : List (List (Path × List Edit))} {project between result : Project}
      (some : target.batches rule project ≠ [])
      (applied : applyBatches (target.batches rule project) project = .ok () between)
      (rest : ReplacementRounds target rule rounds between result) :
      ReplacementRounds target rule (target.batches rule project :: rounds) project result

section

variable {target : ReplacementTarget} {rule : ReplacementRule} {project between result : Project}
  {round outcome : Replacements}

theorem applyBatches_of_replaceRound (ran : replaceRound target rule project = .ok round between) :
    applyBatches (target.batches rule project) project = .ok () between := by
  obtain ⟨_, _, got, rest⟩ := bind_eq_ok_iff.1 ran
  obtain ⟨rfl, rfl⟩ := get_eq_ok_iff.1 got
  obtain ⟨_, _, applied, answered⟩ := bind_eq_ok_iff.1 rest
  obtain ⟨_, rfl⟩ := pure_eq_ok_iff.1 answered
  exact applied

theorem batches_eq_nil_iff :
    target.batches rule project = [] ↔
      ∀ unit ∈ project.units, target.editsLeft rule project unit = [] := by
  have batch (unit : SourceUnit) :
      Edit.outermost (target.editsLeft rule project unit) = [] ↔
        target.editsLeft rule project unit = [] := Edit.outermost_eq_nil_iff
  simp only [← batch]
  change List.filter _ (List.map _ _) = [] ↔ _
  rw [List.filter_eq_nil_iff, List.forall_mem_map]
  refine forall₂_congr fun unit _ => ?_
  simp only [Bool.not_eq_true', List.isEmpty_eq_false_iff, ne_eq, not_not]
  rfl

/-- A round without edits leaves the project as it is. -/
theorem of_count_eq_zero (ran : replaceRound target rule project = .ok round between)
    (none : round.count = 0) : target.batches rule project = [] ∧ between = project := by
  have empty : target.batches rule project = [] :=
    eq_nil_of_editCount_eq_zero (fun batch member => (mem_batches member).2.2)
      ((replaceRound_outcome ran).2.symm.trans none)
  have applied := applyBatches_of_replaceRound ran
  rw [empty] at applied
  exact ⟨empty, (pure_eq_ok_iff.1 applied).2.symm⟩

/-- Rounds stop when there is nothing left to change, or after the given number of them. -/
theorem exists_replacementRounds {bound : Nat}
    (ran : replaceRounds target rule bound project = .ok outcome result) :
    ∃ rounds, ReplacementRounds target rule rounds project result ∧ rounds.length ≤ bound ∧
      outcome.count = (rounds.map editCount).sum ∧
      (rounds.length < bound → target.batches rule result = []) := by
  induction bound generalizing project outcome with
  | zero =>
    obtain ⟨rfl, rfl⟩ := pure_eq_ok_iff.1 ran
    exact ⟨[], .done, Nat.le_refl _, rfl, fun short => absurd short (Nat.lt_irrefl _)⟩
  | succ bound inductionHypothesis =>
    obtain ⟨round, between, first, rest⟩ := bind_eq_ok_iff.1 ran
    split at rest
    · next none =>
      obtain ⟨rfl, rfl⟩ := pure_eq_ok_iff.1 rest
      obtain ⟨empty, rfl⟩ := of_count_eq_zero first none
      exact ⟨[], .done, Nat.zero_le _, rfl, fun _ => empty⟩
    · next some =>
      obtain ⟨others, _, second, rest⟩ := bind_eq_ok_iff.1 rest
      obtain ⟨rfl, rfl⟩ := pure_eq_ok_iff.1 rest
      obtain ⟨rounds, run, short, count, settled⟩ := inductionHypothesis second
      have counted := (replaceRound_outcome first).2
      have nonempty : target.batches rule project ≠ [] := by
        intro empty
        rw [counted, empty] at some
        exact some rfl
      refine ⟨_, .round nonempty (applyBatches_of_replaceRound first) run,
        Nat.succ_le_succ short, ?_, fun fewer => settled (Nat.lt_of_succ_lt_succ fewer)⟩
      rw [Replacements.merge, List.map_cons, List.sum_cons, counted, count]

end

/-! ## Layers -/

namespace ReplacementTarget

variable (target : ReplacementTarget) (rule : ReplacementRule)

/-- Where the edits that are left in a unit stand. -/
def spansLeft (project : Project) (unit : SourceUnit) : List Span :=
  (target.editsLeft rule project unit).map Edit.span

/-- In no unit more edits that are left lie in each other than there are layers. -/
def NestsWithin (project : Project) (layers : Nat) : Prop :=
  ∀ unit ∈ project.units, Span.nesting (target.spansLeft rule project unit) ≤ layers

/-- What is left afterwards nests no deeper than what was covered by other edits before. -/
def LeavesCovered (before after : Project) : Prop :=
  ∀ unit ∈ after.units, ∀ old ∈ before.units, (old.path == unit.path) = true →
    Span.nesting (target.spansLeft rule after unit) ≤
      Span.nesting (Span.covered (target.spansLeft rule before old))

instance (project : Project) (layers : Nat) : Decidable (target.NestsWithin rule project layers) :=
  inferInstanceAs (Decidable (∀ unit ∈ _, _))

instance (before after : Project) : Decidable (target.LeavesCovered rule before after) :=
  inferInstanceAs (Decidable (∀ unit ∈ _, ∀ old ∈ _, _))

/-- Whether each of the rounds leaves only what its edits covered: what is written for a site is
read without sites of its own. -/
def leavesCoveredThrough : Nat → Project → Bool
  | 0, _ => true
  | rounds + 1, project =>
      match replaceRound target rule project with
      | .ok round between =>
          round.count == 0 ||
            (decide (target.LeavesCovered rule project between) &&
              leavesCoveredThrough rounds between)
      | .error _ _ => true

variable {target rule} {before after project : Project}

theorem NestsWithin.of_leavesCovered {layers : Nat}
    (within : target.NestsWithin rule before (layers + 1)) (same : SamePaths before after)
    (leaves : target.LeavesCovered rule before after) : target.NestsWithin rule after layers := by
  intro unit member
  obtain ⟨old, oldMember, path⟩ := same.exists_unit member
  refine (leaves unit member old oldMember (Path.beq_iff.2 (congrArg _ path))).trans ?_
  by_cases none : target.spansLeft rule before old = []
  · rw [none]
    exact Nat.zero_le _
  · exact Nat.le_of_lt_succ
      ((Span.nesting_covered_lt none).trans_le (within old oldMember))

theorem NestsWithin.editsLeft_eq_nil (within : target.NestsWithin rule project 0) :
    ∀ unit ∈ project.units, target.editsLeft rule project unit = [] := by
  intro unit member
  have none := Span.nesting_eq_zero_iff.1 (Nat.le_zero.1 (within unit member))
  exact List.map_eq_nil_iff.1 none

end ReplacementTarget

/-- As many rounds as there are layers leave nothing, if each leaves only what it covered. -/
theorem editsLeft_eq_nil_of_nestsWithin {target : ReplacementTarget} {rule : ReplacementRule}
    {bound : Nat} {project result : Project} {outcome : Replacements}
    (ran : replaceRounds target rule bound project = .ok outcome result)
    (within : target.NestsWithin rule project bound)
    (covered : target.leavesCoveredThrough rule bound project = true) :
    ∀ unit ∈ result.units, target.editsLeft rule result unit = [] := by
  induction bound generalizing project outcome with
  | zero =>
    obtain ⟨_, rfl⟩ := pure_eq_ok_iff.1 ran
    exact within.editsLeft_eq_nil
  | succ bound inductionHypothesis =>
    obtain ⟨round, between, first, rest⟩ := bind_eq_ok_iff.1 ran
    rw [ReplacementTarget.leavesCoveredThrough, first] at covered
    split at rest
    · next none =>
      obtain ⟨_, rfl⟩ := pure_eq_ok_iff.1 rest
      obtain ⟨empty, rfl⟩ := of_count_eq_zero first none
      exact batches_eq_nil_iff.1 empty
    · next some =>
      obtain ⟨_, _, second, rest⟩ := bind_eq_ok_iff.1 rest
      obtain ⟨_, rfl⟩ := pure_eq_ok_iff.1 rest
      simp only [beq_eq_false_iff_ne.2 some, Bool.false_or, Bool.and_eq_true,
        decide_eq_true_eq] at covered
      -- a round takes a layer away, and one round less is left to make
      exact inductionHypothesis second
        (within.of_leavesCovered (replaceRound_eq_ok first).1 covered.1) covered.2

/-! ## Alignment -/

namespace ReplacementTarget

/-- The units have the code that they had, and the target goes by no name it did not go by. -/
def KeepsUses (target : ReplacementTarget) (before after : Project) : Prop :=
  ∀ unit ∈ after.units, ∀ old ∈ before.units, (old.path == unit.path) = true →
    old.sameCode unit = true ∧
      ∀ name ∈ target.namesIn after unit, name ≠ "" ∧ name ∈ target.namesIn before old

instance (target : ReplacementTarget) (before after : Project) :
    Decidable (target.KeepsUses before after) :=
  inferInstanceAs (Decidable (∀ unit ∈ _, ∀ old ∈ _, _ → _ ∧ ∀ name ∈ _, _))

variable {target : ReplacementTarget} {factory : Factory} {before after : Project}

/-- A site stands in the code, so it was there before with the same text. -/
theorem IsSiteLeft.exists_before {unit : SourceUnit} {use : Reference} {site : Site}
    (left : target.IsSiteLeft factory after unit use site) (same : SamePaths before after)
    (keeps : target.KeepsUses before after) :
    ∃ old useThen siteThen, target.IsSiteLeft factory before old useThen siteThen := by
  obtain ⟨user, userMember, place, placeMember, identifier, named, rfl⟩ :=
    mem_references_iff.1 left.refers
  obtain rfl : user = unit := after.eq_of_path_beq userMember left.inProject left.stands
  obtain ⟨old, oldMember, path⟩ := same.exists_unit userMember
  obtain ⟨sameCode, names⟩ := keeps user userMember old oldMember (Path.beq_iff.2 (congrArg _ path))
  obtain ⟨nonempty, namedThen⟩ := names _ named
  have outside : place.isInside .importStatement = false := by
    have included := left.outside
    simp only [includes, Bool.and_eq_true, Bool.not_eq_true'] at included
    exact included.1.1
  -- a node without bytes would have no text, while the target goes by names that have one
  have wide : place.node.span.start < place.node.span.stop := by
    have isIn := (forall_descendants (fun _ placed _ => placed.child) user.isPlaced_tree _
      (mem_descendants_of_mem_placesBelow placeMember)).isIn
    have size := isIn.size_slice
    by_contra short
    refine nonempty (Text.eq_empty_of_size ?_)
    rw [SourceUnit.textOf, textIn, size]
    omega
  obtain ⟨placeThen, memberThen, alike, alikeAt⟩ := SourceUnit.exists_alikeWithin_nodeAt
    (SourceUnit.sameCode_symm sameCode) placeMember identifier outside wide
  obtain ⟨siteThen, classified, changes⟩ := exists_site_of_alikeWithin alikeAt left.classified
  have text : user.textOf place.node = old.textOf placeThen.node := alike.node.textIn_eq
  refine ⟨old, old.referenceAt placeThen, siteThen, oldMember, ?_, ?_, ?_, classified, ?_⟩
  · exact mem_references_iff.2 ⟨old, oldMember, placeThen, memberThen,
      alike.node.kind_eq ▸ identifier, text ▸ namedThen, rfl⟩
  · rw [← left.outside]
    simp only [includes, SourceUnit.referenceAt, path, alike.isInside_eq]
  · exact Path.beq_iff.2 rfl
  · rw [← changes, left.changes]

theorem NoSiteLeft.of_keepsUses (none : target.NoSiteLeft factory before)
    (same : SamePaths before after) (keeps : target.KeepsUses before after) :
    target.NoSiteLeft factory after := by
  intro unit use site left
  obtain ⟨old, useThen, siteThen, leftThen⟩ := left.exists_before same keeps
  exact none old useThen siteThen leftThen

end ReplacementTarget

/-! ## The whole replacement -/

/-- What rounds of replacements of a class and the alignment behind them leave. -/
structure ReplacesSites (target : ReplacementTarget) (table : ImportTable) (factory : Factory)
    (project result : Project) (outcome : Replacements)
    (rounds : List (List (Path × List Edit))) (rewritten : Project) : Prop where
  made : replaceRounds target (classRule factory) roundLimit project = .ok outcome rewritten
  batches : ReplacementRounds target (classRule factory) rounds project rewritten
  bounded : rounds.length ≤ roundLimit
  count : outcome.count = (rounds.map editCount).sum
  aligned : alignAll table outcome.units rewritten = .ok () result
  settled : rounds.length < roundLimit → target.NoSiteLeft factory rewritten
  nested : target.NestsWithin (classRule factory) project roundLimit →
    target.leavesCoveredThrough (classRule factory) roundLimit project = true →
      target.NoSiteLeft factory rewritten
  kept : target.KeepsUses rewritten result → target.NoSiteLeft factory rewritten →
    target.NoSiteLeft factory result

/-- A replacement applies as many edits as it counts, in at most `roundLimit` rounds. It leaves no
site if it gets by with fewer rounds, as it does where sites nest in no more layers and are
replaced by none; and the alignment brings none back that keeps the uses of the class. -/
theorem exists_replacesSites {target : ReplacementTarget} {table : ImportTable} {factory : Factory}
    {project result : Project} {outcome : Replacements}
    (ran : replaceReferences target table (classRule factory) project = .ok outcome result) :
    ∃ rounds rewritten,
      ReplacesSites target table factory project result outcome rounds rewritten := by
  obtain ⟨_, rewritten, made, rest⟩ := bind_eq_ok_iff.1 ran
  obtain ⟨_, _, aligned, rest⟩ := bind_eq_ok_iff.1 rest
  obtain ⟨rfl, rfl⟩ := pure_eq_ok_iff.1 rest
  obtain ⟨rounds, run, bounded, count, settled⟩ := exists_replacementRounds made
  exact ⟨rounds, rewritten,
    { made
      batches := run
      bounded
      count
      aligned
      settled := fun fewer =>
        ReplacementTarget.noSiteLeft_iff.2 (batches_eq_nil_iff.1 (settled fewer))
      nested := fun within covered =>
        ReplacementTarget.noSiteLeft_iff.2 (editsLeft_eq_nil_of_nestsWithin made within covered)
      kept := fun keeps none => none.of_keepsUses (samePaths_alignAll aligned) keeps }⟩

/-- The class `C` of `d.ts`, in all other units. -/
def classC : ReplacementTarget := ⟨⟨"d.ts"⟩, "C", fun _ => false⟩

/-- A construction in the argument of another one. -/
def nestedConstructions : Project :=
  ofSources ⟨""⟩ {} [(⟨"d.ts"⟩, ""), (⟨"u.ts"⟩, "import\x7bC\x7dfrom'./d';new C(new C)")]

theorem exists_replacesSites_nestedConstructions :
    ∃ outcome result rounds rewritten,
      replaceReferences classC [] (classRule ⟨"c", none⟩) nestedConstructions =
        .ok outcome result ∧
      ReplacesSites classC [] ⟨"c", none⟩ nestedConstructions result outcome rounds rewritten ∧
      outcome.count = 2 ∧ classC.NoSiteLeft ⟨"c", none⟩ result := by
  have succeeds : succeedsWith (fun outcome result =>
      decide (outcome.count = 2 ∧
        succeedsWith (fun _ rewritten => decide (classC.KeepsUses rewritten result))
          (replaceRounds classC (classRule ⟨"c", none⟩) roundLimit nestedConstructions) = true))
      (replaceReferences classC [] (classRule ⟨"c", none⟩) nestedConstructions) = true := by
    decide +kernel
  have layers : classC.NestsWithin (classRule ⟨"c", none⟩) nestedConstructions roundLimit ∧
      classC.leavesCoveredThrough (classRule ⟨"c", none⟩) roundLimit nestedConstructions = true := by
    decide +kernel
  obtain ⟨outcome, result, ran, holds⟩ := exists_of_succeedsWith succeeds
  obtain ⟨count, keeps⟩ := of_decide_eq_true holds
  obtain ⟨rounds, rewritten, replaces⟩ := exists_replacesSites ran
  rw [replaces.made] at keeps
  exact ⟨outcome, result, rounds, rewritten, ran, replaces, count,
    replaces.kept (of_decide_eq_true keeps) (replaces.nested layers.1 layers.2)⟩

/-- A call with the class as its only argument. -/
def classAsArgument : Project :=
  ofSources ⟨""⟩ {} [(⟨"d.ts"⟩, ""), (⟨"u.ts"⟩, "import\x7bC\x7dfrom'./d';f(C)")]

/-- What a round writes can be a site again, and the rounds end with the last one there may be. -/
theorem not_noSiteLeft_classAsArgument :
    ∃ outcome result,
      replaceReferences classC [] (classRule ⟨"C ", none⟩) classAsArgument = .ok outcome result ∧
      outcome.count = roundLimit ∧ ¬ classC.NoSiteLeft ⟨"C ", none⟩ result := by
  have succeeds : succeedsWith (fun outcome result => decide (outcome.count = roundLimit ∧
      ¬ ∀ unit ∈ result.units, classC.editsLeft (classRule ⟨"C ", none⟩) result unit = []))
      (replaceReferences classC [] (classRule ⟨"C ", none⟩) classAsArgument) = true := by
    decide +kernel
  obtain ⟨outcome, result, ran, holds⟩ := exists_of_succeedsWith succeeds
  obtain ⟨count, left⟩ := of_decide_eq_true holds
  exact ⟨outcome, result, ran, count, fun none =>
    left (ReplacementTarget.noSiteLeft_iff.1 none)⟩

end CreatorMigration
