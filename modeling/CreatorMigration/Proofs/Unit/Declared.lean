import CreatorMigration.Proofs.Unit.Exports
import CreatorMigration.Unit.Import

/-! # Declared and listed names

A unit exports a name that it declares in the statement of the declaration, or in a list of exports.

* `SourceUnit.declared` holds the declared names, each with the name that its statement exports.
* `SourceUnit.listed` holds the entries of the lists.
* `SourceUnit.Exports` puts the two together; `mem_exportedNames_of_exports` says that other units
  find what is exported.

Alike statements declare and list the same.
-/

namespace CreatorMigration

open List (Forall₂)
open Node

/-- A name that a unit declares. -/
structure Declared where
  kind : DeclarationKind
  name : String
  /-- The name under which the statement itself exports it. -/
  exportedAs : Option String
deriving DecidableEq

namespace SourceUnit

/-! ## Statements -/

/-- Whether a node of the code is a statement, and not an empty one. -/
def isStatement (node : Node) : Bool :=
  node.isNamed && !node.isComment && node.kind != .emptyStatement

/-- The statements of a unit, other than its import statements. -/
def statements (unit : SourceUnit) : List Node := unit.code.filter isStatement

def isDefaultExport (text : String) (statement : Node) : Bool :=
  statement.children.any fun child => child.kind == .token && child.textIn text == "default"

/-- The name under which a statement exports a name that it declares. -/
def exportedAs? (text : String) (statement : Node) (name : String) : Option String :=
  if statement.kind = .exportStatement then
    some (if isDefaultExport text statement then "default" else name)
  else none

/-- The names that a statement declares. -/
def declaredBy (text : String) (statement : Node) : List Declared :=
  (Declaration.ofStatement ⟨statement, [], []⟩).filterMap fun declaration =>
    (nameIn? text declaration.node).map fun name =>
      ⟨declaration.kind, name, exportedAs? text statement name⟩

/-- The names that a statement lists for export from the unit, each with the name outside. -/
def listedBy (text : String) (statement : Node) : List (String × String) :=
  if statement.hasChild .source then []
  else
    ((statement.childOfKind? .exportClause).map fun clause =>
      clause.namedParts.filterMap (ReExport.readPair text)).getD []

def declared (unit : SourceUnit) : List Declared := unit.statements.flatMap (declaredBy unit.text)

/-- An export statement that declares nothing: a list, a re-export or the export of a value. -/
def isBareExport (statement : Node) : Bool :=
  statement.kind == .exportStatement && !statement.hasChild .declaration

def bareExports (unit : SourceUnit) : List Node := unit.statements.filter isBareExport

def listed (unit : SourceUnit) : List (String × String) :=
  unit.bareExports.flatMap (listedBy unit.text)

def HasDeclarationOf (unit : SourceUnit) (name : String) : Prop :=
  ∃ declared ∈ unit.declared, declared.name = name

/-- What the unit declares under `name` leaves it under `outer`. -/
def Exports (unit : SourceUnit) (kind : DeclarationKind) (name outer : String) : Prop :=
  ∃ declared ∈ unit.declared, declared.kind = kind ∧ declared.name = name ∧
    (declared.exportedAs = some outer ∨ (name, outer) ∈ unit.listed)

instance (unit : SourceUnit) (name : String) : Decidable (unit.HasDeclarationOf name) :=
  inferInstanceAs (Decidable (∃ declared ∈ _, _))

instance (unit : SourceUnit) (kind : DeclarationKind) (name outer : String) :
    Decidable (unit.Exports kind name outer) :=
  inferInstanceAs (Decidable (∃ declared ∈ _, _))

/-! ## Declarations -/

section

variable {unit : SourceUnit} {text : String} {statement : Node}

/-- Only variables share a statement. -/
theorem eq_singleton_of_mem_declaredBy {declared : Declared}
    (member : declared ∈ declaredBy text statement) (single : declared.kind ≠ .variable) :
    declaredBy text statement = [declared] := by
  obtain ⟨declaration, declares, named⟩ := List.mem_filterMap.1 member
  have alone : Declaration.ofStatement ⟨statement, [], []⟩ = [declaration] := by
    unfold Declaration.ofStatement at declares ⊢
    dsimp only at declares ⊢
    split at declares
    · simp at declares
    · split at declares
      · simp at declares
      · next kind found =>
        obtain ⟨carrier, carries, rfl⟩ := List.mem_map.1 declares
        obtain ⟨name, _, rfl⟩ := Option.map_eq_some_iff.1 named
        have kindSingle : kind ≠ .variable := single
        simp only [Declaration.carriers, if_neg kindSingle, List.mem_singleton] at carries ⊢
        simp [carries]
  rw [declaredBy, alone, List.filterMap_cons, named]
  rfl

/-- A statement that declares anything is no bare export. -/
theorem isBareExport_of_mem_declaredBy {declared : Declared}
    (member : declared ∈ declaredBy text statement) : isBareExport statement = false := by
  obtain ⟨declaration, declares, _⟩ := List.mem_filterMap.1 member
  unfold Declaration.ofStatement at declares
  by_cases exports : statement.kind = .exportStatement
  · cases declaring : statement.child? .declaration with
    | none => simp [exports, declaring] at declares
    | some => simp [isBareExport, hasChild, declaring]
  · simp [isBareExport, exports]

theorem ofStatement_eq_map (place : Place) :
    Declaration.ofStatement place =
      (Declaration.ofStatement ⟨place.node, [], []⟩).map fun declaration =>
        { declaration with statement := place } := by
  unfold Declaration.ofStatement
  dsimp only
  split
  · rfl
  · split
    · rfl
    · simp

/-- Neither imports nor empty statements declare anything. -/
theorem ofStatement_eq_nil {place : Place}
    (nothing : place.node.kind = .importStatement ∨ place.node.kind = .emptyStatement) :
    Declaration.ofStatement place = [] := by
  rcases nothing with sameKind | sameKind <;>
    simp [Declaration.ofStatement, sameKind, DeclarationKind.ofKind?]

theorem mem_statements_iff :
    statement ∈ unit.statements ↔
      ¬ (statement.kind = .importStatement ∨ statement.kind = .emptyStatement) ∧
        ∃ place ∈ unit.topLevel, place.node = statement := by
  have nodes : unit.topLevel.map Place.node =
      unit.tree.children.filter fun node => node.isNamed && !node.isComment := by
    rw [topLevel, ← unit.tree.map_node_childPlaces, List.filter_map]
    rfl
  rw [← List.mem_map, nodes]
  simp only [statements, code, isStatement, List.mem_filter, bne_iff_ne, Bool.and_eq_true]
  tauto

/-- What is declared is what the declarations of the unit declare. -/
theorem mem_declared_iff {declared : Declared} :
    declared ∈ unit.declared ↔ ∃ declaration ∈ unit.declarations,
      unit.nameOf? declaration = some declared.name ∧ declaration.kind = declared.kind ∧
        exportedAs? unit.text declaration.statement.node declared.name = declared.exportedAs := by
  rw [SourceUnit.declared, List.mem_flatMap]
  constructor
  · rintro ⟨statement, member, declares⟩
    obtain ⟨_, place, placed, rfl⟩ := mem_statements_iff.1 member
    obtain ⟨declaration, ofStatement, named⟩ := List.mem_filterMap.1 declares
    obtain ⟨name, nameOf, rfl⟩ := Option.map_eq_some_iff.1 named
    -- the same declaration, in its surroundings
    refine ⟨{ declaration with statement := place }, ?_, nameOf, rfl, rfl⟩
    refine List.mem_flatMap.2 ⟨place, placed, ?_⟩
    rw [ofStatement_eq_map]
    exact List.mem_map_of_mem ofStatement
  · rintro ⟨declaration, member, nameOf, sameKind, exports⟩
    obtain ⟨place, placed, ofStatement⟩ := List.mem_flatMap.1 member
    have declares : ¬ (place.node.kind = .importStatement ∨ place.node.kind = .emptyStatement) :=
      fun nothing => by simp [ofStatement_eq_nil nothing] at ofStatement
    rw [ofStatement_eq_map] at ofStatement
    obtain ⟨bare, bareMember, rfl⟩ := List.mem_map.1 ofStatement
    refine ⟨place.node, mem_statements_iff.2 ⟨declares, place, placed, rfl⟩, ?_⟩
    refine List.mem_filterMap.2 ⟨bare, bareMember, ?_⟩
    have named : nameIn? unit.text bare.node = some declared.name := nameOf
    have bareKind : bare.kind = declared.kind := sameKind
    rw [named, Option.map_some, exports, bareKind]

/-- A declaration with a name declares that name. -/
theorem mem_declared_of_nameOf? {declaration : Declaration} {name : String}
    (member : declaration ∈ unit.declarations) (named : unit.nameOf? declaration = some name) :
    ⟨declaration.kind, name, exportedAs? unit.text declaration.statement.node name⟩ ∈
      unit.declared :=
  mem_declared_iff.2 ⟨declaration, member, named, rfl, rfl⟩

theorem isSome_exportedAs? {declaration : Declaration} (member : declaration ∈ unit.declarations)
    (name : String) :
    (exportedAs? unit.text declaration.statement.node name).isSome = declaration.exported := by
  obtain ⟨place, _, declares⟩ := List.mem_flatMap.1 member
  unfold Declaration.ofStatement at declares
  dsimp only at declares
  split at declares
  · simp at declares
  · split at declares
    · simp at declares
    · obtain ⟨_, _, rfl⟩ := List.mem_map.1 declares
      by_cases exports : place.node.kind = .exportStatement <;> simp [exportedAs?, exports]

theorem outerName?_of_readPair {specifier : Node} {inner outer : String}
    (pair : ReExport.readPair unit.text specifier = some (inner, outer)) :
    unit.outerName? specifier = some outer := by
  obtain ⟨name, named, parts⟩ := Option.map_eq_some_iff.1 pair
  obtain ⟨rfl, rfl⟩ := Prod.mk.inj parts
  unfold outerName?
  rw [named]
  cases specifier.child? .otherName <;> rfl

theorem mem_listedExports_of_mem_listedBy {inner outer : String}
    (isExport : statement.kind = .exportStatement)
    (entry : (inner, outer) ∈ listedBy unit.text statement) :
    outer ∈ unit.listedExports statement := by
  unfold listedBy at entry
  split at entry
  · simp at entry
  · next own =>
    unfold listedExports
    rw [if_pos ⟨isExport, by simpa using own⟩]
    cases clause : statement.childOfKind? .exportClause with
    | none => simp [clause] at entry
    | some clause =>
      simp only [clause, Option.map_some, Option.getD_some] at entry
      obtain ⟨specifier, member, pair⟩ := List.mem_filterMap.1 entry
      exact List.mem_filterMap.2 ⟨specifier, member, outerName?_of_readPair pair⟩

/-- What leaves the unit is among the names by which other units find it, except as a default. -/
theorem mem_exportedNames_of_exports {kind : DeclarationKind} {name outer : String}
    (exports : unit.Exports kind name outer) (named : outer ≠ "default") :
    outer ∈ unit.exportedNames := by
  obtain ⟨declared, member, _, rfl, own | inList⟩ := exports
  · refine List.mem_append_left _ ?_
    obtain ⟨declaration, declares, nameOf, _, exportedAs⟩ := mem_declared_iff.1 member
    have exported := isSome_exportedAs? declares declared.name
    rw [exportedAs, own, Option.isSome_some] at exported
    have sameName : declared.name = outer := by
      rw [own, exportedAs?] at exportedAs
      split at exportedAs
      · split at exportedAs
        · exact absurd (Option.some.inj exportedAs).symm named
        · exact Option.some.inj exportedAs
      · cases exportedAs
    refine List.mem_filterMap.2 ⟨declaration, List.mem_filter.2 ⟨declares, exported.symm⟩, ?_⟩
    rw [nameOf, sameName]
  · refine List.mem_append_right _ ?_
    obtain ⟨statement, bare, entry⟩ := List.mem_flatMap.1 inList
    obtain ⟨stated, isBare⟩ := List.mem_filter.1 bare
    obtain ⟨_, place, placed, rfl⟩ := mem_statements_iff.1 stated
    have isExport := eq_of_beq (Bool.and_eq_true_iff.1 isBare).1
    exact List.mem_flatMap.2 ⟨place, placed, mem_listedExports_of_mem_listedBy isExport entry⟩

end

/-! ## Alike statements -/

section

variable {text textThen : String} {node other : Node}

theorem isDefaultExport_eq (same : Alike text textThen node other) :
    isDefaultExport text node = isDefaultExport textThen other := by
  have children := same.children
  unfold isDefaultExport
  generalize node.children = nodes at children
  generalize other.children = others at children
  induction children with
  | nil => rfl
  | cons first _ inductionHypothesis =>
    rw [List.any_cons, List.any_cons, first.kind_eq, first.textIn_eq, inductionHypothesis]

theorem exportedAs?_eq (same : Alike text textThen node other) (name : String) :
    exportedAs? text node name = exportedAs? textThen other name := by
  rw [exportedAs?, exportedAs?, same.kind_eq, isDefaultExport_eq same]

theorem forall₂_ofStatement (same : Alike text textThen node other) :
    Forall₂ (fun declaration declarationThen => declaration.kind = declarationThen.kind ∧
        Alike text textThen declaration.node declarationThen.node)
      (Declaration.ofStatement ⟨node, [], []⟩) (Declaration.ofStatement ⟨other, [], []⟩) := by
  have declaring : Option.Rel (Alike text textThen)
      (if node.kind == .exportStatement then node.child? .declaration else some node)
      (if other.kind == .exportStatement then other.child? .declaration else some other) := by
    rw [same.kind_eq]
    split
    · exact same.rel_child? .declaration
    · exact .some same
  unfold Declaration.ofStatement
  dsimp only
  generalize (if node.kind == .exportStatement then node.child? .declaration else some node) =
    declares at declaring ⊢
  generalize (if other.kind == .exportStatement then other.child? .declaration else some other) =
    declaresThen at declaring ⊢
  cases declaring with
  | none => exact .nil
  | some alike =>
    dsimp only
    rw [alike.kind_eq]
    split
    · exact .nil
    · refine List.forall₂_map_left_iff.2 (List.forall₂_map_right_iff.2 ?_)
      exact (carriers_eq alike _).imp fun _ _ carrier => ⟨rfl, carrier⟩

theorem declaredBy_eq (same : Alike text textThen node other) :
    declaredBy text node = declaredBy textThen other := by
  refine filterMap_eq_of_forall₂ (forall₂_ofStatement same) fun _ _ ⟨sameKind, alike⟩ => ?_
  simp only [sameKind, nameIn?_eq alike, exportedAs?_eq same]

theorem readPair_eq (same : Alike text textThen node other) :
    ReExport.readPair text node = ReExport.readPair textThen other := by
  have renamed := same.rel_child? .otherName
  have named := same.rel_child? .name
  unfold ReExport.readPair
  generalize node.child? .otherName = name at renamed
  generalize other.child? .otherName = otherName at renamed
  generalize node.child? .name = own at named
  generalize other.child? .name = otherOwn at named
  cases named with
  | none => rfl
  | some alike =>
    cases renamed with
    | none => simp [alike.textIn_eq]
    | some alikeThen => simp [alike.textIn_eq, alikeThen.textIn_eq]

theorem listedBy_eq (same : Alike text textThen node other) :
    listedBy text node = listedBy textThen other := by
  have clauses := same.rel_childOfKind? .exportClause
  unfold listedBy
  rw [same.hasChild_eq]
  generalize node.childOfKind? .exportClause = clause at clauses
  generalize other.childOfKind? .exportClause = otherClause at clauses
  cases clauses with
  | none => rfl
  | some alike =>
    simp only [Option.map_some,
      filterMap_eq_of_forall₂ alike.forall₂_namedParts fun _ _ => readPair_eq]

theorem isBareExport_eq (same : Alike text textThen node other) :
    isBareExport node = isBareExport other := by
  rw [isBareExport, isBareExport, same.kind_eq, same.hasChild_eq]

end

section

variable {unit other : SourceUnit}

theorem forall₂_statements (same : unit.sameCode other = true) :
    Forall₂ (Alike unit.text other.text) unit.statements other.statements :=
  forall₂_filter (allAlike_iff.1 same) fun _ _ alike => by
    simp only [isStatement, isNamed, isComment, alike.kind_eq]

/-- Alike lists of exports list the same. -/
theorem listed_eq (same : Forall₂ (Alike unit.text other.text) unit.bareExports other.bareExports) :
    unit.listed = other.listed :=
  flatMap_eq_of_forall₂ same fun _ _ => listedBy_eq

end

/-! ## Statements without declarations -/

def declaresName (text name : String) (statement : Node) : Bool :=
  (declaredBy text statement).any fun declared => declared.name == name

/-- The statements without the first one that declares the name. -/
def eraseDeclaration (text : String) (statements : List Node) (name : String) : List Node :=
  statements.eraseP (declaresName text name)

/-- How many declarations have the name. -/
def countDeclared (name : String) (declared : List Declared) : Nat :=
  declared.countP fun declared => declared.name == name

theorem eq_of_countDeclared {name : String} {all : List Declared}
    (once : countDeclared name all ≤ 1) {first second : Declared}
    (firstMember : first ∈ all) (firstName : first.name = name)
    (secondMember : second ∈ all) (secondName : second.name = name) : first = second := by
  rw [countDeclared, List.countP_eq_length_filter] at once
  have firstListed : first ∈ all.filter fun declared => declared.name == name :=
    List.mem_filter.2 ⟨firstMember, beq_iff_eq.2 firstName⟩
  have secondListed : second ∈ all.filter fun declared => declared.name == name :=
    List.mem_filter.2 ⟨secondMember, beq_iff_eq.2 secondName⟩
  generalize all.filter _ = named at once firstListed secondListed
  match named with
  | [] => simp at firstListed
  | [only] => rw [List.mem_singleton.1 firstListed, List.mem_singleton.1 secondListed]
  | _ :: _ :: _ => simp at once

section

variable {text : String} {statements : List Node}

/-- Where a name is declared once and not as a variable, nothing else goes with its statement. -/
theorem flatMap_eraseDeclaration {name : String}
    (single : ∀ declared ∈ statements.flatMap (declaredBy text), declared.name = name →
      declared.kind ≠ .variable)
    (once : countDeclared name (statements.flatMap (declaredBy text)) ≤ 1) :
    (eraseDeclaration text statements name).flatMap (declaredBy text) =
      (statements.flatMap (declaredBy text)).filter fun declared => declared.name != name := by
  induction statements with
  | nil => rfl
  | cons first rest inductionHypothesis =>
    rw [List.flatMap_cons] at single once ⊢
    rw [countDeclared, List.countP_append] at once
    cases declares : declaresName text name first with
    | true =>
      obtain ⟨declared, member, named⟩ := List.any_eq_true.1 declares
      have alone := eq_singleton_of_mem_declaredBy member
        (single declared (List.mem_append_left _ member) (eq_of_beq named))
      rw [alone, List.countP_singleton, if_pos named] at once
      -- the other statements do not declare the name again
      have none : (rest.flatMap (declaredBy text)).countP (fun declared => declared.name == name) =
          0 := by
        omega
      have others := List.countP_eq_zero.1 none
      rw [eraseDeclaration, List.eraseP_cons_of_pos declares, alone, List.singleton_append,
        List.filter_cons_of_neg (by simpa using named)]
      exact (List.filter_eq_self.2 fun other later => by simpa using others other later).symm
    | false =>
      have others := List.any_eq_false.1 declares
      rw [eraseDeclaration, List.eraseP_cons_of_neg (by simp [declares]), List.flatMap_cons,
        List.filter_append, List.filter_eq_self.2 fun other member => by
          simpa using others other member]
      have onceThen : countDeclared name (rest.flatMap (declaredBy text)) ≤ 1 := by
        rw [countDeclared]
        omega
      refine congrArg _ (inductionHypothesis (fun declared member => ?_) onceThen)
      exact single declared (List.mem_append_right _ member)

/-- The same for several names, one after the other. -/
theorem flatMap_foldl_eraseDeclaration {names : List String}
    (single : ∀ declared ∈ statements.flatMap (declaredBy text), declared.name ∈ names →
      declared.kind ≠ .variable)
    (once : ∀ name ∈ names, countDeclared name (statements.flatMap (declaredBy text)) ≤ 1) :
    (names.foldl (eraseDeclaration text) statements).flatMap (declaredBy text) =
      (statements.flatMap (declaredBy text)).filter fun declared =>
        !names.contains declared.name := by
  induction names generalizing statements with
  | nil => simp
  | cons first rest inductionHypothesis =>
    have erased := flatMap_eraseDeclaration
      (fun declared member named => single declared member (named ▸ List.mem_cons_self))
      (once first List.mem_cons_self)
    rw [List.foldl_cons, inductionHypothesis, erased, List.filter_filter]
    · refine List.filter_congr fun declared _ => ?_
      rw [List.contains_cons, Bool.not_or, Bool.and_comm, bne]
    · rw [erased]
      exact fun declared member named =>
        single declared (List.mem_filter.1 member).1 (List.mem_cons_of_mem _ named)
    · rw [erased]
      exact fun name member => (List.filter_sublist.countP_le).trans
        (once name (List.mem_cons_of_mem _ member))

/-- No bare export declares anything. -/
theorem filter_foldl_eraseDeclaration (names : List String) :
    (names.foldl (eraseDeclaration text) statements).filter isBareExport =
      statements.filter isBareExport := by
  have one (name : String) (nodes : List Node) :
      (eraseDeclaration text nodes name).filter isBareExport = nodes.filter isBareExport := by
    unfold eraseDeclaration
    induction nodes with
    | nil => rfl
    | cons first rest inductionHypothesis =>
      cases declares : declaresName text name first with
      | true =>
        obtain ⟨declared, member, _⟩ := List.any_eq_true.1 declares
        -- what is erased declares the name, so the filter drops it as well
        rw [List.eraseP_cons_of_pos declares, List.filter_cons_of_neg]
        simp [isBareExport_of_mem_declaredBy member]
      | false =>
        rw [List.eraseP_cons_of_neg (by simp [declares]), List.filter_cons, List.filter_cons,
          inductionHypothesis]
  induction names generalizing statements with
  | nil => rfl
  | cons first rest inductionHypothesis => rw [List.foldl_cons, inductionHypothesis, one]

end

end SourceUnit

end CreatorMigration
