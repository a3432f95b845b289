import CreatorMigration.Proofs.Migration.WrittenSites

/-! # Unions that are rewritten

A union of types with a class of actions among its members is written anew as a whole: as the type
of what the factories of all of its members make.

* `WrittenUnion` is a type as it is written in the place of a union, `KeepsAlternatives` says what
  it would take for all alternatives to be kept.
* `unions_rewritten` says what each round of a replacement writes, and when that keeps them.
-/

namespace CreatorMigration

open Project Update

/-! ## Written types -/

/-- The type of what some factories make, with further alternatives beside it. -/
structure WrittenUnion where
  factories : List String
  others : List String

namespace WrittenUnion

def text (written : WrittenUnion) : String :=
  Text.join " | " (typeMadeBy written.factories :: written.others)

/-- Each member is taken for a class, which its factory is named after. -/
def ofMembers (texts : List String) : WrittenUnion := ⟨texts.map Text.decapitalize, []⟩

end WrittenUnion

def memberTexts (text : String) (union : Node) : List String :=
  union.unionMembers.map (Node.textIn text)

theorem edit_unionMember (text : String) (factory : Factory) (union : Node) :
    (Site.unionMember union).edit text factory =
      ⟨union.span, (WrittenUnion.ofMembers (memberTexts text union)).text⟩ := by
  have made : Site.unionType text union =
      typeMadeBy ((memberTexts text union).map Text.decapitalize) := by
    rw [memberTexts, List.map_map]
    rfl
  rw [Site.edit, made]
  simp [WrittenUnion.text, WrittenUnion.ofMembers, Text.join]

/-! ## Alternatives -/

/-- A member of a union is a reference to a class of actions of the given name. -/
def StandsForClass (classes : Path → String → Prop) (project : Project) (unit : SourceUnit)
    (member : Node) (name : String) : Prop :=
  ∃ declaring, classes declaring name ∧ ∃ use ∈ project.references declaring name,
    (use.unit == unit.path) = true ∧ use.span = member.span

/-- No alternative of a union is lost in the written type: a member that stands for a class is there
as its factory, any other member as itself, and nothing else is taken for a factory. -/
structure KeepsAlternatives (stands : Node → String → Prop) (text : String) (union : Node)
    (written : WrittenUnion) : Prop where
  actions : ∀ member ∈ union.unionMembers, ∀ name, stands member name →
    Text.decapitalize name ∈ written.factories
  others : ∀ member ∈ union.unionMembers, (∀ name, ¬ stands member name) →
    member.textIn text ∈ written.others
  onlyFactories : ∀ factory ∈ written.factories, ∃ member ∈ union.unionMembers, ∃ name,
    stands member name ∧ factory = Text.decapitalize name

section

variable {stands : Node → String → Prop} {text : String} {union : Node}

/-- A member that stands for a class under the name of the class is kept as its factory. -/
theorem decapitalize_mem_factories {member : Node} (isMember : member ∈ union.unionMembers)
    {name : String} (own : member.textIn text = name) :
    Text.decapitalize name ∈ (WrittenUnion.ofMembers (memberTexts text union)).factories :=
  List.mem_map_of_mem (own ▸ List.mem_map_of_mem isMember)

/-- What is no class is not kept, so all alternatives are exactly where there is no such member. -/
theorem keepsAlternatives_ofMembers_iff
    (ownNames : ∀ member ∈ union.unionMembers, ∀ name, stands member name →
      member.textIn text = name) :
    KeepsAlternatives stands text union (.ofMembers (memberTexts text union)) ↔
      ∀ member ∈ union.unionMembers, ∃ name, stands member name := by
  constructor
  · intro keeps member isMember
    by_contra foreign
    rw [not_exists] at foreign
    exact absurd (keeps.others member isMember foreign) List.not_mem_nil
  · intro allStand
    refine ⟨fun member isMember name standsFor => ?_, fun member isMember foreign => ?_,
      fun factory written => ?_⟩
    · exact decapitalize_mem_factories isMember (ownNames member isMember name standsFor)
    · obtain ⟨name, standsFor⟩ := allStand member isMember
      exact absurd standsFor (foreign name)
    · obtain ⟨memberText, isText, rfl⟩ := List.mem_map.1 written
      obtain ⟨member, isMember, rfl⟩ := List.mem_map.1 isText
      obtain ⟨name, standsFor⟩ := allStand member isMember
      exact ⟨member, isMember, name, standsFor, by rw [ownNames member isMember name standsFor]⟩

end

/-! ## Rounds -/

/-- A round writes each union that is left for it, with a member that refers to the target, as the
type of what the factories of all members make. -/
def RewritesUnions (classes : Path → String → Prop) (target : ReplacementTarget)
    (factory : Factory) (before after : Project) : Prop :=
  ∀ {unit : SourceUnit} {use : Reference} {union : Node},
    target.IsSiteLeft factory before unit use (.unionMember union) →
      ∃ changed written, after.unit? unit.path = some changed ∧
        WritesEdit (Edit.outermost (target.editsLeft (classRule factory) before unit)) unit.text
          changed.text ⟨union.span, written.text⟩ ∧
        written = .ofMembers (memberTexts unit.text union) ∧
        (∀ member ∈ union.unionMembers, ∀ name,
          StandsForClass classes before unit member name → unit.textOf member = name →
            Text.decapitalize name ∈ written.factories) ∧
        ((∀ member ∈ union.unionMembers, ∀ name,
            StandsForClass classes before unit member name → unit.textOf member = name) →
          (KeepsAlternatives (StandsForClass classes before unit) unit.text union written ↔
            ∀ member ∈ union.unionMembers, ∃ name,
              StandsForClass classes before unit member name))

theorem WritesSites.rewritesUnions (classes : Path → String → Prop) {target : ReplacementTarget}
    {factory : Factory} {before after : Project}
    (writes : WritesSites target factory before after) :
    RewritesUnions classes target factory before after := by
  intro unit use union left
  obtain ⟨changed, found, written⟩ := writes left
  rw [edit_unionMember] at written
  refine ⟨changed, _, found, written, rfl, fun member isMember name _ own => ?_, fun ownNames => ?_⟩
  · exact decapitalize_mem_factories isMember own
  · exact keepsAlternatives_ofMembers_iff ownNames

/-- Each round of the replacement of a class rewrites whole unions. A member that is written as the
name of its class is kept as the factory of the class, and all alternatives are kept exactly where
all members refer to classes: other types are taken for classes as well. In the end no union with a
member that refers to the class is left, unless the rounds ran out. -/
theorem unions_rewritten (classes : Path → String → Prop) {target : ReplacementTarget}
    {table : ImportTable} {factory : Factory} {project result : Project} {outcome : Replacements}
    (normal : project.HasNormalPaths)
    (ran : replaceReferences target table (classRule factory) project = .ok outcome result) :
    ∃ rounds rewritten,
      EachRound target (classRule factory) (RewritesUnions classes target factory) project
        rewritten ∧
      ReplacementRounds target (classRule factory) rounds project rewritten ∧
      alignAll table outcome.units rewritten = .ok () result ∧
      (rounds.length < roundLimit → ∀ unit use union,
        ¬ target.IsSiteLeft factory rewritten unit use (.unionMember union)) := by
  obtain ⟨rounds, rewritten, replaces⟩ := exists_replacesSites ran
  refine ⟨rounds, rewritten, ?_, replaces.batches, replaces.aligned, fun fewer unit use union =>
    replaces.settled fewer unit use _⟩
  exact (replaces.batches.eachRound normal).mono fun writes => writes.rewritesUnions classes

/-- A union of a class and of an interface. -/
def foreignMember : Project :=
  ofSources ⟨""⟩ {}
    [(⟨"d.ts"⟩, "export class C\x7b\x7d"), (⟨"u.ts"⟩, "import\x7bC\x7dfrom'./d';type T=C|P")]

theorem replaced_foreignMember :
    ∃ outcome result,
      replaceReferences classC [] (classRule ⟨"c", none⟩) foreignMember = .ok outcome result ∧
      ∀ after ∈ result.unit? ⟨"u.ts"⟩, ∃ declaration ∈ after.declarationsOfKind .typeAlias,
        ∃ value ∈ declaration.node.child? .value,
          memberTexts after.text value = ["ReturnType<typeof c | typeof p>"] := by
  have succeeds : succeedsWith
      (fun _ result => decide (∀ after ∈ result.unit? ⟨"u.ts"⟩,
        ∃ declaration ∈ after.declarationsOfKind .typeAlias,
          ∃ value ∈ declaration.node.child? .value,
            memberTexts after.text value = ["ReturnType<typeof c | typeof p>"]))
      (replaceReferences classC [] (classRule ⟨"c", none⟩) foreignMember) = true := by
    decide +kernel
  obtain ⟨outcome, result, ran, alternatives⟩ := exists_of_succeedsWith succeeds
  exact ⟨outcome, result, ran, of_decide_eq_true alternatives⟩

/-- The only class is the `C` of `d.ts`. -/
def onlyC (declaring : Path) (name : String) : Prop := declaring = ⟨"d.ts"⟩ ∧ name = "C"

theorem unions_rewritten_foreignMember :
    ∃ outcome result rounds rewritten, foreignMember.HasNormalPaths ∧
      replaceReferences classC [] (classRule ⟨"c", none⟩) foreignMember = .ok outcome result ∧
      EachRound classC (classRule ⟨"c", none⟩) (RewritesUnions onlyC classC ⟨"c", none⟩)
        foreignMember rewritten ∧
      ReplacementRounds classC (classRule ⟨"c", none⟩) rounds foreignMember rewritten := by
  have normal : foreignMember.HasNormalPaths := hasNormalPaths_ofSources _ _ _
  obtain ⟨outcome, result, ran, _⟩ := replaced_foreignMember
  obtain ⟨rounds, rewritten, each, run, _⟩ := unions_rewritten onlyC normal ran
  exact ⟨outcome, result, rounds, rewritten, normal, ran, each, run⟩

/-- The interface is no alternative any more, and what is taken for its factory is none. -/
theorem not_keepsAlternatives_foreignMember :
    ∃ outcome result before union,
      replaceReferences classC [] (classRule ⟨"c", none⟩) foreignMember = .ok outcome result ∧
      (∀ after ∈ result.unit? ⟨"u.ts"⟩, ∃ declaration ∈ after.declarationsOfKind .typeAlias,
        ∃ value ∈ declaration.node.child? .value,
          memberTexts after.text value = ["ReturnType<typeof c | typeof p>"]) ∧
      foreignMember.unit? ⟨"u.ts"⟩ = some before ∧ union ∈ before.tree.descendants ∧
      memberTexts before.text union = ["C", "P"] ∧
      ¬ KeepsAlternatives (StandsForClass onlyC foreignMember before) before.text union
        (.ofMembers (memberTexts before.text union)) := by
  have reads : ∃ before ∈ foreignMember.unit? ⟨"u.ts"⟩, ∃ union ∈ before.tree.descendants,
      memberTexts before.text union = ["C", "P"] ∧ ∃ member ∈ union.unionMembers,
        ∀ use ∈ foreignMember.references ⟨"d.ts"⟩ "C", use.span ≠ member.span := by
    decide +kernel
  obtain ⟨before, found, union, inTree, members, member, isMember, foreign⟩ := reads
  obtain ⟨outcome, result, ran, alternatives⟩ := replaced_foreignMember
  refine ⟨outcome, result, before, union, ran, alternatives, found, inTree, members,
    fun keeps => ?_⟩
  refine absurd (keeps.others member isMember ?_) List.not_mem_nil
  rintro name ⟨_, ⟨rfl, rfl⟩, use, refers, _, same⟩
  exact foreign use refers same

end CreatorMigration
