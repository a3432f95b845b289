import CreatorMigration.Proofs.Tree.Placement
import CreatorMigration.Proofs.Unit.Code
import CreatorMigration.Unit.Declaration

/-! # What a unit exports

No import statement exports anything, so units with the same code export the same names.
-/

namespace CreatorMigration

open List (Forall₂)
open Node

namespace SourceUnit

/-- The names that a node of the text carries. -/
def nameIn? (text : String) (node : Node) : Option String := (node.child? .name).map (textIn text)

/-- The names that an exported declaration declares. -/
def declaredExports (text : String) (statement : Node) : List String :=
  if statement.kind = .exportStatement then
    match statement.child? .declaration with
    | none => []
    | some declaring =>
        match DeclarationKind.ofKind? declaring.kind with
        | none => []
        | some kind => (Declaration.carriers kind declaring).filterMap (nameIn? text)
  else []

/-- Whatever only export statements have is in the code. -/
theorem flatMap_topLevel {α : Type} (unit : SourceUnit) {names : Node → List α}
    (exported : ∀ node, node.kind ≠ .exportStatement → names node = []) :
    (unit.topLevel.flatMap fun place => names place.node) = unit.code.flatMap names := by
  have skip (test : Node → Bool) (nodes : List Node)
      (passes : ∀ node, node.kind = .exportStatement → test node = true) :
      (nodes.filter test).flatMap names = nodes.flatMap names := by
    induction nodes with
    | nil => rfl
    | cons node rest inductionHypothesis =>
      cases passed : test node with
      | true => simp [passed, inductionHypothesis]
      | false =>
        have other : node.kind ≠ .exportStatement := by
          intro same
          simp [passes node same] at passed
        simp [passed, inductionHypothesis, exported node other]
  have nodes : unit.topLevel.map Place.node =
      unit.tree.children.filter fun node => node.isNamed && !node.isComment := by
    rw [topLevel, ← unit.tree.map_node_childPlaces, List.filter_map]
    rfl
  rw [← List.flatMap_map, nodes, code, skip _ _ fun node same => by simp [isNamed, isComment, same],
    skip _ _ fun node same => by simp [same]]

theorem declaredExports_eq (unit : SourceUnit) (place : Place) :
    ((Declaration.ofStatement place).filter Declaration.exported).filterMap unit.nameOf? =
      declaredExports unit.text place.node := by
  unfold Declaration.ofStatement declaredExports
  by_cases exports : place.node.kind = .exportStatement
  · simp only [exports, beq_self_eq_true, if_true]
    cases place.node.child? .declaration with
    | none => rfl
    | some declaring =>
      dsimp only
      cases DeclarationKind.ofKind? declaring.kind with
      | none => rfl
      | some kind =>
        dsimp only
        rw [List.filter_eq_self.2 (by simp), List.filterMap_map]
        rfl
  · simp only [exports, beq_eq_false_iff_ne.2 exports, Bool.false_eq_true, if_false]
    cases DeclarationKind.ofKind? place.node.kind with
    | none => rfl
    | some kind => simp

theorem exportedNames_eq (unit : SourceUnit) :
    unit.exportedNames = unit.code.flatMap (declaredExports unit.text) ++
      unit.code.flatMap unit.listedExports := by
  have declared : (unit.topLevel.flatMap fun place => declaredExports unit.text place.node) = _ :=
    unit.flatMap_topLevel fun node other => by simp [declaredExports, other]
  have listed : (unit.topLevel.flatMap fun place => unit.listedExports place.node) = _ :=
    unit.flatMap_topLevel fun node other => by simp [listedExports, other]
  rw [exportedNames, declarations, List.filter_flatMap, List.filterMap_flatMap, ← declared,
    ← listed]
  simp only [declaredExports_eq]

theorem carriers_eq {text textThen : String} {node other : Node}
    (same : Alike text textThen node other) (kind : DeclarationKind) :
    Forall₂ (Alike text textThen) (Declaration.carriers kind node)
      (Declaration.carriers kind other) := by
  unfold Declaration.carriers
  split
  · exact forall₂_filter same.forall₂_namedParts fun _ _ alike => by rw [alike.kind_eq]
  · exact .cons same .nil

theorem nameIn?_eq {text textThen : String} {node other : Node}
    (same : Alike text textThen node other) : nameIn? text node = nameIn? textThen other := by
  have named := same.rel_child? .name
  unfold nameIn?
  generalize node.child? .name = name at named
  generalize other.child? .name = otherName at named
  cases named with
  | none => rfl
  | some alike => exact congrArg some alike.textIn_eq

theorem declaredExports_eq_of_alike {text textThen : String} {node other : Node}
    (same : Alike text textThen node other) :
    declaredExports text node = declaredExports textThen other := by
  have declares := same.rel_child? .declaration
  unfold declaredExports
  rw [same.kind_eq]
  generalize node.child? .declaration = declaring at declares
  generalize other.child? .declaration = otherDeclaring at declares
  cases declares with
  | none => rfl
  | some alike =>
    dsimp only
    rw [alike.kind_eq]
    split
    · split
      · rfl
      · exact filterMap_eq_of_forall₂ (carriers_eq alike _) fun _ _ => nameIn?_eq
    · rfl

theorem outerName?_eq {unit other : SourceUnit} {specifier otherSpecifier : Node}
    (same : Alike unit.text other.text specifier otherSpecifier) :
    unit.outerName? specifier = other.outerName? otherSpecifier := by
  have renamed := same.rel_child? .otherName
  have named := same.rel_child? .name
  unfold outerName?
  generalize specifier.child? .otherName = name at renamed
  generalize otherSpecifier.child? .otherName = otherName at renamed
  cases renamed with
  | some alike => exact congrArg some alike.textIn_eq
  | none =>
    generalize specifier.child? .name = name at named
    generalize otherSpecifier.child? .name = otherName at named
    cases named with
    | none => rfl
    | some alike => exact congrArg some alike.textIn_eq

theorem listedExports_eq_of_alike {unit other : SourceUnit} {node otherNode : Node}
    (same : Alike unit.text other.text node otherNode) :
    unit.listedExports node = other.listedExports otherNode := by
  have clauses := same.rel_childOfKind? .exportClause
  unfold listedExports
  rw [same.kind_eq, same.hasChild_eq]
  generalize node.childOfKind? .exportClause = clause at clauses
  generalize otherNode.childOfKind? .exportClause = otherClause at clauses
  cases clauses with
  | none => rfl
  | some alike =>
    dsimp only
    rw [filterMap_eq_of_forall₂ alike.forall₂_namedParts fun _ _ => outerName?_eq]

/-- Units with the same code export the same names. -/
theorem exportedNames_eq_of_sameCode {unit other : SourceUnit}
    (same : unit.sameCode other = true) : unit.exportedNames = other.exportedNames := by
  have alike := allAlike_iff.1 same
  rw [exportedNames_eq, exportedNames_eq,
    flatMap_eq_of_forall₂ alike fun _ _ => declaredExports_eq_of_alike,
    flatMap_eq_of_forall₂ alike fun _ _ => listedExports_eq_of_alike]

end SourceUnit

end CreatorMigration
