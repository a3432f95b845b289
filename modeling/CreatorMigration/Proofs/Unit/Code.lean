import CreatorMigration.Proofs.Tree.Alike

/-! # The code of a unit

The code of a unit is what stands beside its import statements. The names that a unit mentions are
those of its code, and the names that it binds are those of its code and of its import statements;
`SourceUnit.sameCode` keeps both.
-/

namespace CreatorMigration

open List (Forall₂)
open Node

namespace Node

theorem places_eq (root : Node) :
    root.places = ⟨root, [], []⟩ :: placesOfAll [root] [] root.children := by
  cases root
  rfl

end Node

namespace SourceUnit

/-! ## Mentions -/

def mentionTexts (text : String) (places : List Place) : List String :=
  (places.filter isMention).map fun place => place.node.textIn text

theorem mentionTexts_eq {text textThen : String} {places others : List Place}
    (same : Forall₂ (AlikePlace text textThen) places others) :
    mentionTexts text places = mentionTexts textThen others := by
  have mentions := forall₂_filter same fun _ _ alike => alike.isMention_eq
  unfold mentionTexts
  generalize places.filter isMention = filtered at mentions
  generalize others.filter isMention = otherFiltered at mentions
  induction mentions with
  | nil => rfl
  | cons alike _ inductionHypothesis =>
    rw [List.map_cons, List.map_cons, alike.node.textIn_eq, inductionHypothesis]

mutual

/-- What stands around a tree stands around all of its places. -/
theorem suffix_of_mem_placesBelow {ancestors before : List Node} {place : Place} :
    ∀ {node : Node}, place ∈ placesBelow ancestors before node →
      (place.node = node ∧ place.ancestors = ancestors) ∨ node :: ancestors <:+ place.ancestors
  | ⟨kind, role, span, children⟩, member => by
    rw [placesBelow, List.mem_cons] at member
    cases member with
    | inl own =>
      subst own
      exact .inl ⟨rfl, rfl⟩
    | inr below => exact .inr (suffix_of_mem_placesOfAll below)

theorem suffix_of_mem_placesOfAll {ancestors before : List Node} {place : Place} :
    ∀ {nodes : List Node}, place ∈ placesOfAll ancestors before nodes →
      ancestors <:+ place.ancestors
  | [], member => by simp [placesOfAll] at member
  | child :: rest, member => by
    rw [placesOfAll, List.mem_append] at member
    cases member with
    | inl first =>
      cases suffix_of_mem_placesBelow first with
      | inl own => exact own.2 ▸ List.suffix_rfl
      | inr below => exact (List.suffix_cons child ancestors).trans below
    | inr later => exact suffix_of_mem_placesOfAll later

end

/-- Nothing in an import statement is a mention. -/
theorem mentionTexts_import {text : String} {ancestors before : List Node} {node : Node}
    (imports : node.kind = .importStatement) :
    mentionTexts text (placesBelow ancestors before node) = [] := by
  have none : ∀ place ∈ placesBelow ancestors before node, ¬ isMention place = true := by
    intro place member mention
    simp only [isMention, Bool.and_eq_true, Bool.not_eq_true'] at mention
    cases suffix_of_mem_placesBelow member with
    | inl own => simp [own.1, imports, Kind.isAnyIdentifier] at mention
    | inr below =>
      have inside : place.isInside .importStatement = true := by
        rw [Place.isInside, Place.ancestorOfKind?, List.find?_isSome]
        exact ⟨node, below.subset List.mem_cons_self, by simp [imports]⟩
      simp [inside] at mention
  rw [mentionTexts, List.filter_eq_nil_iff.2 none, List.map_nil]

/-! ## The code -/

/-- The statements and comments of a unit, other than its import statements. -/
def code (unit : SourceUnit) : List Node :=
  unit.tree.children.filter fun node => node.kind != .importStatement

def importNodes (unit : SourceUnit) : List Node :=
  unit.tree.children.filter fun node => node.kind == .importStatement

theorem kind_tree (unit : SourceUnit) : unit.tree.kind = .program := by
  rw [unit.tree_eq, Tree.parse]
  cases read : Tree.parse? unit.text with
  | none => rfl
  | some root =>
    unfold Tree.parse? at read
    simp only [bind, Option.bind_eq_some_iff] at read
    obtain ⟨tokens, _, ⟨parts, rest⟩, _, woven, _, made⟩ := read
    split at made
    · rw [← Option.some.inj made]
      rfl
    · cases made

theorem mentionTexts_places (unit : SourceUnit) :
    mentionTexts unit.text unit.tree.places =
      mentionTexts unit.text (unit.code.flatMap (placesBelow [unit.tree] [])) := by
  have children (nodes before : List Node) :
      mentionTexts unit.text (placesOfAll [unit.tree] before nodes) =
        mentionTexts unit.text ((nodes.filter fun node => node.kind != .importStatement).flatMap
          (placesBelow [unit.tree] [])) := by
    have append (places others : List Place) : mentionTexts unit.text (places ++ others) =
        mentionTexts unit.text places ++ mentionTexts unit.text others := by
      simp [mentionTexts]
    induction nodes generalizing before with
    | nil => rfl
    | cons node rest inductionHypothesis =>
      rw [placesOfAll, append, inductionHypothesis]
      by_cases imports : node.kind = .importStatement
      · simp [imports, mentionTexts_import imports]
      · -- what stands in front of a statement does not matter for what it mentions
        have same : mentionTexts unit.text (placesBelow [unit.tree] before node) =
            mentionTexts unit.text (placesBelow [unit.tree] [] node) :=
          mentionTexts_eq (forall₂_placesBelow (List.forall₂_same.2 fun _ _ => ⟨rfl, fun _ => rfl⟩)
            (alike_refl node))
        simp [imports, append, same]
  have root : isMention ⟨unit.tree, [], []⟩ = false := by
    simp [isMention, unit.kind_tree, Kind.isAnyIdentifier]
  rw [places_eq, code, ← children _ [], mentionTexts, List.filter_cons, root]
  rfl

/-! ## Bindings -/

/-- The names that the nodes are taken to bind. -/
def bindingsIn (text : String) (nodes : List Node) : List String :=
  (((nodes.flatMap descendants).filterMap binding?).flatMap boundNodes).map (textIn text)

theorem bindingsIn_eq {text textThen : String} {nodes others : List Node}
    (same : Forall₂ (Alike text textThen) nodes others) :
    bindingsIn text nodes = bindingsIn textThen others := by
  have below := List.rel_flatMap same fun _ _ alike => forall₂_descendants alike
  have bindings := List.rel_filterMap (fun _ _ alike => rel_binding? alike) below
  exact textIn_map_eq (List.rel_flatMap bindings fun _ _ alike => forall₂_boundNodes alike)

/-- A unit binds what its code binds and what its import statements bind. -/
theorem mem_namesBound_iff_code {unit : SourceUnit} {name : String} :
    name ∈ unit.namesBound ↔
      name ∈ bindingsIn unit.text unit.code ∨ name ∈ bindingsIn unit.text unit.importNodes := by
  have root : binding? unit.tree = none := by
    unfold binding?
    rw [unit.kind_tree]
  have below : unit.tree.descendants = unit.tree :: unit.tree.children.flatMap descendants :=
    descendants_eq unit.tree
  simp only [namesBound, Text.mem_nameSet, below, List.filterMap_cons, root]
  simp only [bindingsIn, code, importNodes, List.mem_map, List.mem_flatMap, List.mem_filterMap,
    List.mem_filter]
  constructor
  · rintro ⟨leaf, ⟨binding, ⟨node, ⟨statement, member, inside⟩, binds⟩, bound⟩, same⟩
    by_cases imports : statement.kind = .importStatement
    · exact .inr ⟨leaf, ⟨binding, ⟨node, ⟨statement, ⟨member, by simp [imports]⟩, inside⟩, binds⟩,
        bound⟩, same⟩
    · exact .inl ⟨leaf, ⟨binding, ⟨node, ⟨statement, ⟨member, by simp [imports]⟩, inside⟩, binds⟩,
        bound⟩, same⟩
  · rintro (⟨leaf, ⟨binding, ⟨node, ⟨statement, ⟨member, _⟩, inside⟩, binds⟩, bound⟩, same⟩ |
      ⟨leaf, ⟨binding, ⟨node, ⟨statement, ⟨member, _⟩, inside⟩, binds⟩, bound⟩, same⟩)
    · exact ⟨leaf, ⟨binding, ⟨node, ⟨statement, member, inside⟩, binds⟩, bound⟩, same⟩
    · exact ⟨leaf, ⟨binding, ⟨node, ⟨statement, member, inside⟩, binds⟩, bound⟩, same⟩

/-! ## Units with the same code -/

/-- Beside their import statements the units have the same tree with the same texts. -/
def sameCode (unit other : SourceUnit) : Bool :=
  allAlike unit.text other.text unit.code other.code

theorem sameCode_refl (unit : SourceUnit) : unit.sameCode unit = true :=
  allAlike_iff.2 (forall₂_alike_refl _)

theorem sameCode_symm {unit other : SourceUnit} (same : unit.sameCode other = true) :
    other.sameCode unit = true :=
  allAlike_iff.2 (forall₂_alike_symm (allAlike_iff.1 same))

theorem sameCode_trans {unit other last : SourceUnit} (first : unit.sameCode other = true)
    (second : other.sameCode last = true) : unit.sameCode last = true :=
  allAlike_iff.2 (forall₂_alike_trans (allAlike_iff.1 first) (allAlike_iff.1 second))

section

variable {unit other : SourceUnit} (same : unit.sameCode other = true)

include same

theorem namesUsed_eq_of_sameCode : unit.namesUsed = other.namesUsed := by
  have alike := allAlike_iff.1 same
  have around : Forall₂ AlikeAround [unit.tree] [other.tree] := by
    refine .cons ⟨by rw [unit.kind_tree, other.kind_tree], ?_⟩ .nil
    simp [unit.kind_tree]
  have places : Forall₂ (AlikePlace unit.text other.text)
      (unit.code.flatMap (placesBelow [unit.tree] []))
      (other.code.flatMap (placesBelow [other.tree] [])) :=
    List.rel_flatMap alike fun _ _ statement => forall₂_placesBelow around statement
  have mentions := mentionTexts_eq places
  rw [← mentionTexts_places, ← mentionTexts_places] at mentions
  exact congrArg Text.nameSet mentions

theorem bindingsIn_code_eq :
    bindingsIn unit.text unit.code = bindingsIn other.text other.code :=
  bindingsIn_eq (allAlike_iff.1 same)

end

end SourceUnit

end CreatorMigration
