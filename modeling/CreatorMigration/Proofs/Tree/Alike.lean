import CreatorMigration.Proofs.Tree.Places
import CreatorMigration.Unit.Names
import Mathlib.Data.List.Forall2

/-! # Trees that differ in their offsets

Two trees of two texts are alike when they have the same nodes with the same texts, wherever these
stand. Alike trees mention and bind the same names.
-/

namespace CreatorMigration.Node

open List (Forall₂)

/-! ## Lists whose items are related -/

section

variable {α : Type} {related : α → α → Prop} {items others : List α} {test : α → Bool}
  (same : Forall₂ related items others)
  (respects : ∀ item other, related item other → test item = test other)

include same respects

theorem rel_find? : Option.Rel related (items.find? test) (others.find? test) := by
  induction same with
  | nil => exact .none
  | @cons item other _ _ alike _ inductionHypothesis =>
    cases passes : test item with
    | false => simpa [passes, ← respects item other alike] using inductionHypothesis
    | true => simpa [passes, ← respects item other alike] using alike

theorem forall₂_filter : Forall₂ related (items.filter test) (others.filter test) := by
  refine List.rel_filter (fun item other alike => ?_) same
  change test item = true ↔ test other = true
  rw [respects item other alike]

end

theorem flatMap_eq_of_forall₂ {α β : Type} {related : β → β → Prop} {items others : List β}
    {values otherValues : β → List α} (same : Forall₂ related items others)
    (each : ∀ item other, related item other → values item = otherValues other) :
    items.flatMap values = others.flatMap otherValues := by
  induction same with
  | nil => rfl
  | cons first _ inductionHypothesis =>
    rw [List.flatMap_cons, List.flatMap_cons, each _ _ first, inductionHypothesis]

theorem filterMap_eq_of_forall₂ {α β : Type} {related : β → β → Prop} {items others : List β}
    {value otherValue : β → Option α} (same : Forall₂ related items others)
    (each : ∀ item other, related item other → value item = otherValue other) :
    items.filterMap value = others.filterMap otherValue := by
  induction same with
  | nil => rfl
  | cons first _ inductionHypothesis =>
    rw [List.filterMap_cons, List.filterMap_cons, each _ _ first, inductionHypothesis]

/-! ## Alike trees -/

mutual

/-- The nodes have the same kind, the same role, the same text and children that are alike. -/
def alike (text textThen : String) : Node → Node → Bool
  | ⟨kind, role, span, children⟩, ⟨kindThen, roleThen, spanThen, childrenThen⟩ =>
      decide (kind = kindThen) && decide (role = roleThen) &&
        decide (Text.slice text span = Text.slice textThen spanThen) &&
        allAlike text textThen children childrenThen

def allAlike (text textThen : String) : List Node → List Node → Bool
  | [], [] => true
  | first :: rest, other :: others =>
      alike text textThen first other && allAlike text textThen rest others
  | _, _ => false

end

section

variable {text textThen : String} {node other : Node} {nodes others : List Node}

/-- The nodes are alike in their texts. -/
def Alike (text textThen : String) (node other : Node) : Prop :=
  alike text textThen node other = true

theorem allAlike_iff :
    allAlike text textThen nodes others = true ↔ Forall₂ (Alike text textThen) nodes others := by
  induction nodes generalizing others with
  | nil => cases others <;> simp [allAlike]
  | cons first rest inductionHypothesis =>
    cases others with
    | nil => simp [allAlike]
    | cons other others => simp [allAlike, inductionHypothesis, Alike]

theorem alike_iff :
    Alike text textThen node other ↔
      node.kind = other.kind ∧ node.role = other.role ∧
        node.textIn text = other.textIn textThen ∧
        Forall₂ (Alike text textThen) node.children other.children := by
  obtain ⟨kind, role, span, children⟩ := node
  obtain ⟨kindThen, roleThen, spanThen, childrenThen⟩ := other
  simp [Alike, alike, textIn, allAlike_iff, and_assoc]

namespace Alike

theorem kind_eq (same : Alike text textThen node other) : node.kind = other.kind :=
  (alike_iff.1 same).1

theorem role_eq (same : Alike text textThen node other) : node.role = other.role :=
  (alike_iff.1 same).2.1

theorem textIn_eq (same : Alike text textThen node other) :
    node.textIn text = other.textIn textThen :=
  (alike_iff.1 same).2.2.1

theorem children (same : Alike text textThen node other) :
    Forall₂ (Alike text textThen) node.children other.children :=
  (alike_iff.1 same).2.2.2

end Alike

mutual

theorem alike_refl : ∀ node : Node, Alike text text node node
  | ⟨_, _, _, children⟩ => alike_iff.2 ⟨rfl, rfl, rfl, forall₂_alike_refl children⟩

theorem forall₂_alike_refl : ∀ nodes : List Node, Forall₂ (Alike text text) nodes nodes
  | [] => .nil
  | first :: rest => .cons (alike_refl first) (forall₂_alike_refl rest)

end

mutual

theorem Alike.symm : ∀ {node other : Node}, Alike text textThen node other →
    Alike textThen text other node
  | ⟨_, _, _, _⟩, ⟨_, _, _, _⟩, same =>
    alike_iff.2 ⟨same.kind_eq.symm, same.role_eq.symm, same.textIn_eq.symm,
      forall₂_alike_symm same.children⟩

theorem forall₂_alike_symm : ∀ {nodes others : List Node},
    Forall₂ (Alike text textThen) nodes others → Forall₂ (Alike textThen text) others nodes
  | [], [], _ => .nil
  | _ :: _, _ :: _, .cons first rest => .cons first.symm (forall₂_alike_symm rest)

end

mutual

theorem Alike.trans {text textThen textLast : String} :
    ∀ {node other last : Node}, Alike text textThen node other →
      Alike textThen textLast other last → Alike text textLast node last
  | ⟨_, _, _, _⟩, ⟨_, _, _, _⟩, ⟨_, _, _, _⟩, first, second =>
    alike_iff.2 ⟨first.kind_eq.trans second.kind_eq, first.role_eq.trans second.role_eq,
      first.textIn_eq.trans second.textIn_eq, forall₂_alike_trans first.children second.children⟩

theorem forall₂_alike_trans {text textThen textLast : String} :
    ∀ {nodes others lasts : List Node}, Forall₂ (Alike text textThen) nodes others →
      Forall₂ (Alike textThen textLast) others lasts → Forall₂ (Alike text textLast) nodes lasts
  | [], [], [], _, _ => .nil
  | _ :: _, _ :: _, _ :: _, .cons first rest, .cons firstThen restThen =>
    .cons (first.trans firstThen) (forall₂_alike_trans rest restThen)

end

theorem Alike.rel_child? (same : Alike text textThen node other) (role : Role) :
    Option.Rel (Alike text textThen) (node.child? role) (other.child? role) :=
  rel_find? same.children fun _ _ alike => by rw [alike.role_eq]

theorem Alike.rel_childOfKind? (same : Alike text textThen node other) (kind : Kind) :
    Option.Rel (Alike text textThen) (node.childOfKind? kind) (other.childOfKind? kind) :=
  rel_find? same.children fun _ _ alike => by rw [alike.kind_eq]

theorem Alike.forall₂_namedParts (same : Alike text textThen node other) :
    Forall₂ (Alike text textThen) node.namedParts other.namedParts :=
  forall₂_filter same.children fun _ _ alike => by
    simp only [isNamed, isComment, alike.kind_eq]

theorem Alike.hasChild_eq (same : Alike text textThen node other) (role : Role) :
    node.hasChild role = other.hasChild role := by
  have related := same.rel_child? role
  unfold hasChild
  generalize node.child? role = child at related
  generalize other.child? role = otherChild at related
  cases related <;> rfl

end

/-! ## Nodes below -/

mutual

theorem forall₂_descendants {text textThen : String} :
    ∀ {node other : Node}, Alike text textThen node other →
      Forall₂ (Alike text textThen) node.descendants other.descendants
  | ⟨_, _, _, _⟩, ⟨_, _, _, _⟩, same => by
    rw [descendants, descendants]
    exact .cons same (forall₂_descendantsOfAll same.children)

theorem forall₂_descendantsOfAll {text textThen : String} :
    ∀ {nodes others : List Node}, Forall₂ (Alike text textThen) nodes others →
      Forall₂ (Alike text textThen) (descendantsOfAll nodes) (descendantsOfAll others)
  | [], [], _ => .nil
  | _ :: _, _ :: _, .cons first rest => by
    rw [descendantsOfAll, descendantsOfAll]
    exact List.rel_append (forall₂_descendants first) (forall₂_descendantsOfAll rest)

end

/-! ## Places -/

/-- What matters of the nodes around a place. -/
def AlikeAround (node other : Node) : Prop :=
  node.kind = other.kind ∧
    (node.kind = .exportStatement → node.hasChild .source = other.hasChild .source)

theorem Alike.around {text textThen : String} {node other : Node}
    (same : Alike text textThen node other) : AlikeAround node other :=
  ⟨same.kind_eq, fun _ => same.hasChild_eq .source⟩

/-- Alike nodes below nodes that are alike in what matters. -/
structure AlikePlace (text textThen : String) (place other : Place) : Prop where
  node : Alike text textThen place.node other.node
  ancestors : Forall₂ AlikeAround place.ancestors other.ancestors

mutual

theorem forall₂_placesBelow {text textThen : String}
    {ancestors others before beforeThen : List Node} (around : Forall₂ AlikeAround ancestors others) :
    ∀ {node other : Node}, Alike text textThen node other →
      Forall₂ (AlikePlace text textThen) (placesBelow ancestors before node)
        (placesBelow others beforeThen other)
  | ⟨_, _, _, _⟩, ⟨_, _, _, _⟩, same => by
    rw [placesBelow, placesBelow]
    exact .cons ⟨same, around⟩ (forall₂_placesOfAll (.cons same.around around) same.children)

theorem forall₂_placesOfAll {text textThen : String}
    {ancestors others before beforeThen : List Node} (around : Forall₂ AlikeAround ancestors others) :
    ∀ {nodes nodesThen : List Node}, Forall₂ (Alike text textThen) nodes nodesThen →
      Forall₂ (AlikePlace text textThen) (placesOfAll ancestors before nodes)
        (placesOfAll others beforeThen nodesThen)
  | [], [], _ => .nil
  | _ :: _, _ :: _, .cons first rest => by
    rw [placesOfAll, placesOfAll]
    exact List.rel_append (forall₂_placesBelow around first) (forall₂_placesOfAll around rest)

end

theorem textIn_map_eq {text textThen : String} {nodes others : List Node}
    (same : Forall₂ (Alike text textThen) nodes others) :
    nodes.map (textIn text) = others.map (textIn textThen) := by
  induction same with
  | nil => rfl
  | cons alike _ inductionHypothesis =>
    rw [List.map_cons, List.map_cons, alike.textIn_eq, inductionHypothesis]

namespace AlikePlace

variable {text textThen : String} {place other : Place}

theorem parent?_any_eq (same : AlikePlace text textThen place other) (kind : Kind) :
    (place.parent?.any fun parent => parent.kind == kind) =
      other.parent?.any fun parent => parent.kind == kind := by
  obtain ⟨node, before, ancestors⟩ := place
  obtain ⟨otherNode, otherBefore, others⟩ := other
  cases same.ancestors with
  | nil => rfl
  | cons first _ => simp [Place.parent?, first.1]

theorem rel_ancestorOfKind? (same : AlikePlace text textThen place other) (kind : Kind) :
    Option.Rel AlikeAround (place.ancestorOfKind? kind) (other.ancestorOfKind? kind) :=
  rel_find? same.ancestors fun _ _ alike => by rw [alike.1]

theorem isInside_eq (same : AlikePlace text textThen place other) (kind : Kind) :
    place.isInside kind = other.isInside kind := by
  have related := same.rel_ancestorOfKind? kind
  unfold Place.isInside
  generalize place.ancestorOfKind? kind = around at related
  generalize other.ancestorOfKind? kind = otherAround at related
  cases related <;> rfl

theorem bindsInPattern_eq (same : AlikePlace text textThen place other) :
    SourceUnit.bindsInPattern place = SourceUnit.bindsInPattern other := by
  unfold SourceUnit.bindsInPattern SourceUnit.isKeyInPattern
  rw [same.node.kind_eq, same.node.role_eq, same.parent?_any_eq]

theorem isPassedOn_eq (same : AlikePlace text textThen place other) :
    SourceUnit.isPassedOn place = SourceUnit.isPassedOn other := by
  have related := same.rel_ancestorOfKind? .exportStatement
  have exports : ∀ statement ∈ place.ancestorOfKind? .exportStatement,
      statement.kind = .exportStatement := by
    intro statement found
    unfold Place.ancestorOfKind? at found
    simpa using List.find?_some (Option.mem_def.1 found)
  unfold SourceUnit.isPassedOn
  generalize place.ancestorOfKind? .exportStatement = statement at related exports
  generalize other.ancestorOfKind? .exportStatement = otherStatement at related
  cases related with
  | none => rfl
  | some alike => exact alike.2 (exports _ rfl)

theorem isMention_eq (same : AlikePlace text textThen place other) :
    SourceUnit.isMention place = SourceUnit.isMention other := by
  unfold SourceUnit.isMention
  rw [same.node.kind_eq, same.isInside_eq, same.isPassedOn_eq]

end AlikePlace

end CreatorMigration.Node

namespace CreatorMigration.SourceUnit

open List (Forall₂)
open Node

variable {text textThen : String}

/-! ## Names in alike trees -/

section

variable {node other : Node} (same : Alike text textThen node other)

include same

theorem bindsItself_eq : bindsItself node = bindsItself other := by
  rw [bindsItself, bindsItself, same.kind_eq]

theorem rel_binding? : Option.Rel (Alike text textThen) (binding? node) (binding? other) := by
  unfold binding?
  rw [same.kind_eq]
  split
  case h_1 =>
    have renamed := same.rel_child? .otherName
    have named := same.rel_child? .name
    generalize node.child? .otherName = child at renamed
    generalize other.child? .otherName = otherChild at renamed
    cases renamed with
    | none => exact named
    | some alike => exact .some alike
  all_goals first
    | exact same.rel_childOfKind? _
    | exact same.rel_child? _
    | exact .some same
    | exact .none

theorem forall₂_boundNodes :
    Forall₂ (Alike text textThen) (boundNodes node) (boundNodes other) := by
  unfold boundNodes
  rw [bindsItself_eq same]
  split
  · exact .cons same .nil
  · have places : Forall₂ (AlikePlace text textThen) node.places other.places :=
      forall₂_placesBelow .nil same
    exact List.rel_map (fun _ _ alike => alike.node)
      (forall₂_filter places fun _ _ alike => alike.bindsInPattern_eq)

end

end CreatorMigration.SourceUnit
