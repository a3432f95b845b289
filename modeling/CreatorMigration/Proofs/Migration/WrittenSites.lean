import CreatorMigration.Proofs.Edit.Outermost
import CreatorMigration.Proofs.Migration.Discriminators
import CreatorMigration.Proofs.Migration.SitesLeft

/-! # What a round writes

A round of replacements applies one batch to each unit that edits are left in.

* `exists_writesEdit` says what becomes of an edit that is left for a round: it stands in the text
  of its unit afterwards, or an edit that is in its way does.
* `ReplacementRounds.eachRound` says it of all sites of a class in all rounds of its replacement.
-/

namespace CreatorMigration

open Project Update

/-! ## Batches -/

section

variable {batches : List (Path × List Edit)} {project result : Project} {path : Path}

/-- Batches for other units leave a unit alone. -/
theorem unit?_applyBatches (ran : applyBatches batches project = .ok () result)
    (others : ∀ batch ∈ batches, (path.normalize == batch.1.normalize) = false) :
    result.unit? path = project.unit? path := by
  induction batches generalizing project with
  | nil =>
    obtain ⟨_, rfl⟩ := pure_eq_ok_iff.1 ran
    rfl
  | cons first rest inductionHypothesis =>
    obtain ⟨_, between, applied, ranRest⟩ := bind_eq_ok_iff.1 ran
    obtain ⟨different, restDifferent⟩ := List.forall_mem_cons.1 others
    rw [inductionHypothesis ranRest restDifferent]
    exact (sameBut_apply (apply_eq_ok_iff.1 applied)).unit?_eq different

/-- Each batch is applied to its unit, which no other batch is for. -/
theorem exists_of_mem_applyBatches
    (apart : (batches.map Prod.fst).Pairwise fun left right =>
      (left.normalize == right.normalize) = false)
    (ran : applyBatches batches project = .ok () result) {batch : Path × List Edit}
    (member : batch ∈ batches) :
    ∃ unit changed, project.unit? batch.1 = some unit ∧ unit.apply batch.2 = .ok changed ∧
      result.unit? batch.1 = some changed := by
  induction batches generalizing project with
  | nil => cases member
  | cons first rest inductionHypothesis =>
    obtain ⟨_, between, applied, ranRest⟩ := bind_eq_ok_iff.1 ran
    obtain ⟨firstApart, restApart⟩ := List.pairwise_cons.1 apart
    have applied := apply_eq_ok_iff.1 applied
    cases List.mem_cons.1 member with
    | inl own =>
      subst own
      obtain ⟨unit, changed, found, changes, foundThen⟩ := unit?_of_apply applied
      refine ⟨unit, changed, found, changes, ?_⟩
      rw [unit?_applyBatches ranRest fun other otherMember =>
        firstApart other.1 (List.mem_map_of_mem otherMember), foundThen]
    | inr behind =>
      obtain ⟨unit, changed, found, others⟩ := inductionHypothesis restApart ranRest behind
      -- the first batch is for another unit and leaves that of this batch alone
      have different := firstApart batch.1 (List.mem_map_of_mem behind)
      rw [Path.beq_comm] at different
      exact ⟨unit, changed, (sameBut_apply applied).unit?_eq different ▸ found, others⟩

end

/-! ## Edits of a round -/

/-- What becomes of an edit where a batch is applied to a text. -/
inductive WritesEdit (applied : List Edit) (before after : String) (edit : Edit) : Prop where
  /-- The edit is applied: what it writes stands between what was in front of it and what was behind
  it, where others may have been applied, too. -/
  | own {earlier later : List Edit} (member : edit ∈ applied)
      (written : after = Edit.spliceTo before edit.span.start 0 earlier ++ edit.replacement ++
        Edit.splice before edit.span.stop later)
  /-- An edit that is applied is in its way. -/
  | givesWay {wide : Edit} (member : wide ∈ applied)
      (inTheWay : wide.overlaps edit = true ∨ wide.span = edit.span)
      (inFront : wide.span.start ≤ edit.span.start)

/-- An edit among those of which the outermost are applied is applied or gives way. -/
theorem writesEdit_of_apply {unit changed : SourceUnit} {edits : List Edit} {edit : Edit}
    (member : edit ∈ edits) (applied : unit.apply (Edit.outermost edits) = .ok changed) :
    WritesEdit (Edit.outermost edits) unit.text changed.text edit := by
  obtain ⟨dropped, choice⟩ := Edit.exists_isChoice edits
  by_cases kept : edit ∈ Edit.outermost edits
  · obtain ⟨earlier, later, _, split⟩ := Edit.exists_of_applyAll
      (SourceUnit.text_of_apply applied (List.ne_nil_of_mem kept)) kept
    exact .own kept split
  · have givesWay : edit ∈ dropped :=
      (List.mem_append.1 (choice.perm.mem_iff.2 member)).resolve_left kept
    obtain ⟨wide, wideMember, inTheWay, inFront⟩ := choice.givesWay edit givesWay
    exact .givesWay wideMember inTheWay inFront

section

variable {target : ReplacementTarget} {rule : ReplacementRule} {project between result : Project}
  {unit : SourceUnit}

/-- The batch of a unit that edits are left in. -/
theorem mem_batches_of_editsLeft (member : unit ∈ project.units)
    (some : target.editsLeft rule project unit ≠ []) :
    (unit.path, Edit.outermost (target.editsLeft rule project unit)) ∈
      target.batches rule project := by
  have nonempty : Edit.outermost (target.editsLeft rule project unit) ≠ [] := fun none =>
    some (Edit.outermost_eq_nil_iff.1 none)
  refine List.mem_filter.2 ⟨List.mem_map.2 ⟨unit, member, rfl⟩, ?_⟩
  simpa using nonempty

/-- What a round makes of an edit that is left in a unit. -/
theorem exists_writesEdit (normal : project.HasNormalPaths)
    (applied : applyBatches (target.batches rule project) project = .ok () between)
    (member : unit ∈ project.units) {edit : Edit}
    (left : edit ∈ target.editsLeft rule project unit) :
    ∃ changed, between.unit? unit.path = some changed ∧
      WritesEdit (Edit.outermost (target.editsLeft rule project unit)) unit.text changed.text
        edit := by
  have batchMember := mem_batches_of_editsLeft member (List.ne_nil_of_mem left)
  obtain ⟨own, changed, found, changes, foundThen⟩ := exists_of_mem_applyBatches
    (apart_of_isListOfUnits normal (isListOfUnits_batches target rule project)) applied batchMember
  obtain rfl : unit = own := Option.some.inj ((normal.unit?_eq member).symm.trans found)
  exact ⟨changed, foundThen, writesEdit_of_apply left changes⟩

/-! ## Rounds -/

/-- The rounds of a replacement, of each of which something holds. -/
inductive EachRound (target : ReplacementTarget) (rule : ReplacementRule)
    (holds : Project → Project → Prop) : Project → Project → Prop where
  | done {project : Project} : EachRound target rule holds project project
  | round {project between result : Project}
      (applied : applyBatches (target.batches rule project) project = .ok () between)
      (held : holds project between) (rest : EachRound target rule holds between result) :
      EachRound target rule holds project result

theorem EachRound.mono {holds weaker : Project → Project → Prop}
    (each : EachRound target rule holds project result)
    (implies : ∀ {before after}, holds before after → weaker before after) :
    EachRound target rule weaker project result := by
  induction each with
  | done => exact .done
  | round applied held _ inductionHypothesis =>
    exact .round applied (implies held) inductionHypothesis

/-- Each site that is left before a round is written, or gives way to a wider one. -/
def WritesSites (target : ReplacementTarget) (factory : Factory) (before after : Project) : Prop :=
  ∀ {unit : SourceUnit} {use : Reference} {site : Site},
    target.IsSiteLeft factory before unit use site →
      ∃ changed, after.unit? unit.path = some changed ∧
        WritesEdit (Edit.outermost (target.editsLeft (classRule factory) before unit)) unit.text
          changed.text (site.edit unit.text factory)

theorem writesSites_of_applyBatches {factory : Factory} (normal : project.HasNormalPaths)
    (applied : applyBatches (target.batches (classRule factory) project) project =
      .ok () between) : WritesSites target factory project between := by
  intro unit use site left
  refine exists_writesEdit normal applied left.inProject (ReplacementTarget.mem_editsLeft.2
    ⟨use, left.refers, left.outside, left.stands, ?_, left.changes⟩)
  exact Option.map_eq_some_iff.2 ⟨site, left.classified, rfl⟩

/-- Every round of the replacement of a class writes the sites that are left for it. -/
theorem ReplacementRounds.eachRound {factory : Factory} {rounds : List (List (Path × List Edit))}
    (run : ReplacementRounds target (classRule factory) rounds project result)
    (normal : project.HasNormalPaths) :
    EachRound target (classRule factory) (WritesSites target factory) project result := by
  induction run with
  | done => exact .done
  | round _ applied _ inductionHypothesis =>
    refine .round applied (writesSites_of_applyBatches normal applied) (inductionHypothesis ?_)
    exact (samePaths_applyBatches applied).hasNormalPaths normal

end

end CreatorMigration
