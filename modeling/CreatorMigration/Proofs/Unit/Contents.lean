import CreatorMigration.Project.Imports
import CreatorMigration.Proofs.Project.Alignment

/-! # What import statements say

`ImportContents` is what an import statement says, wherever it stands. The edits of an alignment are
described by what they make of the contents: `importsWith` adds a name, and `Import.leftOf` drops
the names that are not mentioned. Either way what is needed survives (`ImportContents.Survive`).
-/

namespace CreatorMigration

structure NamedImport where
  name : String
  otherName : Option String
  text : String
deriving DecidableEq

def NamedImport.localName (specifier : NamedImport) : String :=
  specifier.otherName.getD specifier.name

structure ImportContents where
  source : String
  defaultName : Option String
  namespaceName : Option String
  named : List NamedImport
  hasList : Bool
  typeOnly : Bool
deriving DecidableEq

def ImportSpecifier.contents (specifier : ImportSpecifier) : NamedImport :=
  ⟨specifier.name, specifier.otherName, specifier.text⟩

def Import.contents (statement : Import) : ImportContents :=
  { source := statement.source
    defaultName := statement.defaultName
    namespaceName := statement.namespaceName
    named := statement.named.map ImportSpecifier.contents
    hasList := statement.namedSpan.isSome
    typeOnly := statement.typeOnly }

namespace ImportContents

/-- `import { name } from 'module';` -/
def ofName (name module : String) : ImportContents :=
  { source := module, defaultName := none, namespaceName := none, named := [⟨name, none, name⟩]
    hasList := true, typeOnly := false }

/-- The statement with one more name in its list. -/
def joined (name : String) (contents : ImportContents) : ImportContents :=
  { contents with named := contents.named ++ [⟨name, none, name⟩] }

/-- The names that a statement with these contents binds. -/
def localNames (contents : ImportContents) : List String :=
  contents.defaultName.toList ++ contents.namespaceName.toList ++
    contents.named.map NamedImport.localName

end ImportContents

/-! ## Adding a name -/

/-- The contents of the statements once the first of them that may be joined has been joined, or a
statement of its own has been added behind them. -/
def importsWith (name module : String) (isSameModule : Import → Bool) :
    List Import → List ImportContents
  | [] => [.ofName name module]
  | statement :: rest =>
      if isSameModule statement && !statement.typeOnly && statement.namedSpan.isSome then
        statement.contents.joined name :: rest.map Import.contents
      else statement.contents :: importsWith name module isSameModule rest

/-! ## Dropping names -/

/-- The contents that are left of a statement without the names that are not mentioned. -/
def Import.leftOf (mentioned : List String) (statement : Import) : Option ImportContents :=
  if statement.named.any (SourceUnit.isUnused mentioned) then
    match statement.named.filter (fun specifier => !SourceUnit.isUnused mentioned specifier),
      statement.defaultName with
    | first :: rest, _ =>
        some { statement.contents with named := (first :: rest).map ImportSpecifier.contents }
    | [], some default =>
        some { statement.contents with
          defaultName := some default, namespaceName := none, named := [], hasList := false }
    | [], none => if statement.namespaceName.isNone then none else some statement.contents
  else some statement.contents

/-! ## Contents of statements -/

@[simp]
theorem ImportSpecifier.localName_contents (specifier : ImportSpecifier) :
    specifier.contents.localName = specifier.localName := rfl

theorem Import.localNames_contents (statement : Import) :
    statement.contents.localNames = statement.localNames := by
  simp [ImportContents.localNames, Import.localNames, contents, Function.comp_def]

theorem SourceUnit.hasImportOf_iff {unit : SourceUnit} {name : String} :
    unit.HasImportOf name ↔ ∃ contents ∈ unit.imports.map Import.contents,
      name ∈ contents.localNames := by
  simp [HasImportOf, Import.localNames_contents]

namespace ImportContents

/-- Names stand in a list, and a list never stands beside a name space. -/
structure OneList (contents : ImportContents) : Prop where
  listed : contents.named ≠ [] → contents.hasList = true
  alone : contents.hasList = true → contents.namespaceName = none

/-- A statement says what another one says, but for names that are not mentioned, which it may have
lost, and for mentioned names that it has besides. -/
structure Keeps (mentioned : List String) (old new : ImportContents) : Prop where
  source : new.source = old.source
  typeOnly : new.typeOnly = old.typeOnly
  defaultName : new.defaultName = old.defaultName
  namespaceName : new.namespaceName = old.namespaceName
  named : ∀ specifier ∈ old.named, specifier.localName ∈ mentioned → specifier ∈ new.named
  others : ∀ specifier ∈ new.named, specifier ∈ old.named ∨ specifier.localName ∈ mentioned

/-- The statement imports anything else than names that are not mentioned. -/
def IsNeeded (mentioned : List String) (contents : ImportContents) : Prop :=
  contents.defaultName ≠ none ∨ contents.namespaceName ≠ none ∨ contents.named = [] ∨
    ∃ specifier ∈ contents.named, specifier.localName ∈ mentioned

instance (mentioned : List String) (contents : ImportContents) :
    Decidable (IsNeeded mentioned contents) :=
  inferInstanceAs (Decidable (_ ∨ _))

section

variable {mentioned : List String} {old new newer : ImportContents}

theorem Keeps.refl (mentioned : List String) (contents : ImportContents) :
    Keeps mentioned contents contents :=
  ⟨rfl, rfl, rfl, rfl, fun _ member _ => member, fun _ member => .inl member⟩

theorem Keeps.trans (first : Keeps mentioned old new) (second : Keeps mentioned new newer) :
    Keeps mentioned old newer := by
  refine ⟨second.source.trans first.source, second.typeOnly.trans first.typeOnly,
    second.defaultName.trans first.defaultName, second.namespaceName.trans first.namespaceName,
    fun specifier member isMentioned => ?_, fun specifier member => ?_⟩
  · exact second.named specifier (first.named specifier member isMentioned) isMentioned
  · cases second.others specifier member with
    | inl between => exact first.others specifier between
    | inr isMentioned => exact .inr isMentioned

/-- What is needed is still needed, as the names that it has besides are mentioned. -/
theorem Keeps.isNeeded (keeps : Keeps mentioned old new) (needed : IsNeeded mentioned old) :
    IsNeeded mentioned new := by
  unfold IsNeeded at needed ⊢
  rw [keeps.defaultName, keeps.namespaceName]
  rcases needed with default | space | none | ⟨specifier, member, isMentioned⟩
  · exact .inl default
  · exact .inr (.inl space)
  · cases named : new.named with
    | nil => simp
    | cons first rest =>
      have others := keeps.others first (by simp [named])
      rw [none] at others
      exact .inr (.inr (.inr ⟨first, by simp, others.resolve_left (by simp)⟩))
  · exact .inr (.inr (.inr ⟨specifier, keeps.named specifier member isMentioned, isMentioned⟩))

theorem Keeps.localNames (keeps : Keeps mentioned old new) {name : String}
    (isMentioned : name ∈ mentioned) (binds : name ∈ old.localNames) : name ∈ new.localNames := by
  simp only [ImportContents.localNames, List.mem_append, Option.mem_toList, List.mem_map] at binds ⊢
  rw [keeps.defaultName, keeps.namespaceName]
  rcases binds with binds | ⟨specifier, member, rfl⟩
  · exact .inl binds
  · exact .inr ⟨specifier, keeps.named specifier member isMentioned, rfl⟩

theorem isNeeded_of_mem_localNames {name : String} (isMentioned : name ∈ mentioned)
    (binds : name ∈ old.localNames) : IsNeeded mentioned old := by
  simp only [ImportContents.localNames, List.mem_append, Option.mem_toList, List.mem_map] at binds
  rcases binds with (default | space) | ⟨specifier, member, rfl⟩
  · exact .inl (by simp [default])
  · exact .inr (.inl (by simp [space]))
  · exact .inr (.inr (.inr ⟨specifier, member, isMentioned⟩))

end

/-! ## Lists of statements -/

/-- All statements that are needed are still there, in their order. -/
def Survive (mentioned : List String) (olds news : List ImportContents) : Prop :=
  List.SublistForall₂ (Keeps mentioned) (olds.filter (IsNeeded mentioned ·))
    (news.filter (IsNeeded mentioned ·))

section

variable {mentioned : List String} {old new : ImportContents}
  {olds news newers : List ImportContents}

instance : IsTrans ImportContents (Keeps mentioned) := ⟨fun _ _ _ => Keeps.trans⟩

instance : Std.Refl (Keeps mentioned) := ⟨Keeps.refl mentioned⟩

theorem Survive.refl (contents : List ImportContents) : Survive mentioned contents contents :=
  (List.Sublist.refl _).sublistForall₂

theorem Survive.trans (first : Survive mentioned olds news)
    (second : Survive mentioned news newers) : Survive mentioned olds newers := by
  unfold Survive at first second ⊢
  exact List.SublistForall₂.is_trans.trans _ _ _ first second

theorem Survive.cons (survive : Survive mentioned olds news) (keeps : Keeps mentioned old new) :
    Survive mentioned (old :: olds) (new :: news) := by
  unfold Survive
  by_cases needed : IsNeeded mentioned old
  · rw [List.filter_cons_of_pos (by simpa), List.filter_cons_of_pos
      (by simpa using keeps.isNeeded needed)]
    exact .cons keeps survive
  · rw [List.filter_cons_of_neg (by simpa), List.filter_cons]
    split
    · exact .cons_right survive
    · exact survive

theorem Survive.exists_keeps (survive : Survive mentioned olds news) (member : old ∈ olds)
    (needed : IsNeeded mentioned old) : ∃ new ∈ news, Keeps mentioned old new := by
  obtain ⟨kept, related, sublist⟩ := List.sublistForall₂_iff.1 survive
  obtain ⟨new, newMember, keeps⟩ :=
    exists_related_of_mem related (List.mem_filter.2 ⟨member, by simpa using needed⟩)
  exact ⟨new, (List.mem_filter.1 (sublist.subset newMember)).1, keeps⟩

end

end ImportContents

open ImportContents

/-! ## Added names -/

section

variable {name module : String} {isSameModule : Import → Bool} {mentioned : List String}

theorem keeps_joined (isMentioned : name ∈ mentioned) (contents : ImportContents) :
    Keeps mentioned contents (contents.joined name) := by
  refine ⟨rfl, rfl, rfl, rfl, fun specifier member _ => List.mem_append_left _ member, ?_⟩
  intro specifier member
  refine (List.mem_append.1 member).imp_right fun own => ?_
  obtain rfl := List.mem_singleton.1 own
  exact isMentioned

/-- Each statement is still there, with a name more or as it was. -/
theorem survive_importsWith (isMentioned : name ∈ mentioned) (imports : List Import) :
    Survive mentioned (imports.map Import.contents)
      (importsWith name module isSameModule imports) := by
  induction imports with
  | nil => exact .nil
  | cons first rest inductionHypothesis =>
    rw [importsWith]
    split
    · exact (Survive.refl _).cons (keeps_joined isMentioned _)
    · exact inductionHypothesis.cons (Keeps.refl _ _)

/-- A statement imports the name itself, as a value, from one of some modules. -/
structure ImportContents.IsImportOf (name : String) (specifiers : String → Prop)
    (contents : ImportContents) : Prop where
  named : ⟨name, none, name⟩ ∈ contents.named
  value : contents.typeOnly = false
  source : specifiers contents.source

theorem ImportContents.IsImportOf.of_keeps {specifiers : String → Prop} {old new : ImportContents}
    (imports : old.IsImportOf name specifiers) (keeps : Keeps mentioned old new)
    (isMentioned : name ∈ mentioned) : new.IsImportOf name specifiers :=
  ⟨keeps.named _ imports.named isMentioned, keeps.typeOnly.trans imports.value,
    keeps.source ▸ imports.source⟩

theorem ImportContents.IsImportOf.mem_localNames {specifiers : String → Prop}
    {contents : ImportContents} (imports : contents.IsImportOf name specifiers) :
    name ∈ contents.localNames :=
  List.mem_append_right _ (List.mem_map.2 ⟨_, imports.named, rfl⟩)

/-- The name is imported from the module or from what counts as the same module. -/
theorem exists_isImportOf_importsWith {specifiers : String → Prop} (own : specifiers module)
    (same : ∀ statement, isSameModule statement = true → specifiers statement.source)
    (imports : List Import) :
    ∃ new ∈ importsWith name module isSameModule imports, new.IsImportOf name specifiers := by
  induction imports with
  | nil => exact ⟨_, List.mem_cons_self, by simp [ofName], rfl, own⟩
  | cons first rest inductionHypothesis =>
    rw [importsWith]
    split
    · next joins =>
      simp only [Bool.and_eq_true, Bool.not_eq_true'] at joins
      exact ⟨_, List.mem_cons_self, by simp [joined], joins.1.2, same first joins.1.1⟩
    · obtain ⟨new, newMember, imports⟩ := inductionHypothesis
      exact ⟨new, List.mem_cons_of_mem _ newMember, imports⟩

/-- No other name is imported. -/
theorem mem_localNames_importsWith {imports : List Import} {contents : ImportContents}
    (member : contents ∈ importsWith name module isSameModule imports) {other : String}
    (different : other ≠ name) (binds : other ∈ contents.localNames) :
    ∃ statement ∈ imports, other ∈ statement.contents.localNames := by
  induction imports with
  | nil =>
    obtain rfl := List.mem_singleton.1 member
    simp [ImportContents.localNames, ofName, NamedImport.localName, different] at binds
  | cons first rest inductionHypothesis =>
    rw [importsWith] at member
    split at member
    · cases member with
      | head =>
        refine ⟨first, List.mem_cons_self, ?_⟩
        simpa [ImportContents.localNames, joined, NamedImport.localName, different] using binds
      | tail _ later =>
        obtain ⟨statement, statementMember, rfl⟩ := List.mem_map.1 later
        exact ⟨statement, List.mem_cons_of_mem _ statementMember, binds⟩
    · cases member with
      | head => exact ⟨first, List.mem_cons_self, binds⟩
      | tail _ later =>
        obtain ⟨statement, statementMember, found⟩ := inductionHypothesis later
        exact ⟨statement, List.mem_cons_of_mem _ statementMember, found⟩

end

/-! ## Dropped names -/

/-- What becomes of a statement whose names are dropped where they are not mentioned. -/
inductive Import.Leaves (mentioned : List String) (statement : Import) :
    Option ImportContents → Prop where
  | whole (each : ∀ specifier ∈ statement.named, specifier.localName ∈ mentioned) :
      Leaves mentioned statement (some statement.contents)
  | list (kept : List ImportSpecifier)
      (each : ∀ specifier, specifier ∈ kept ↔
        specifier ∈ statement.named ∧ specifier.localName ∈ mentioned) :
      Leaves mentioned statement
        (some { statement.contents with named := kept.map ImportSpecifier.contents })
  | default (name : String) (default : statement.defaultName = some name)
      (noSpace : statement.namespaceName = none)
      (unused : ∀ specifier ∈ statement.named, specifier.localName ∉ mentioned) :
      Leaves mentioned statement (some { statement.contents with
        defaultName := some name, namespaceName := none, named := [], hasList := false })
  | nothing (noDefault : statement.defaultName = none) (noSpace : statement.namespaceName = none)
      (named : statement.named ≠ [])
      (unused : ∀ specifier ∈ statement.named, specifier.localName ∉ mentioned) :
      Leaves mentioned statement none

section

variable {mentioned : List String} {statement : Import}

theorem leaves_leftOf (oneList : statement.contents.OneList) :
    statement.Leaves mentioned (statement.leftOf mentioned) := by
  unfold Import.leftOf
  by_cases unused : statement.named.any (SourceUnit.isUnused mentioned) = true
  · have named : statement.named ≠ [] := by
      intro none
      simp [none] at unused
    -- what loses names has a list, and so it has no name space
    have noSpace : statement.namespaceName = none :=
      oneList.alone (oneList.listed (by simpa [Import.contents] using named))
    have each (specifier : ImportSpecifier) :
        specifier ∈ statement.named.filter (fun specifier =>
          !SourceUnit.isUnused mentioned specifier) ↔
        specifier ∈ statement.named ∧ specifier.localName ∈ mentioned := by
      simp [SourceUnit.isUnused]
    rw [if_pos unused]
    generalize statement.named.filter
      (fun specifier => !SourceUnit.isUnused mentioned specifier) = kept at each
    cases kept with
    | cons first rest => exact .list (first :: rest) each
    | nil =>
      have absent : ∀ specifier ∈ statement.named, specifier.localName ∉ mentioned :=
        fun specifier member isMentioned => by simpa using (each specifier).2 ⟨member, isMentioned⟩
      cases default : statement.defaultName with
      | some name => exact .default name default noSpace absent
      | none =>
        simp only [noSpace, Option.isNone_none, if_true]
        exact .nothing default noSpace named absent
  · rw [if_neg unused]
    refine .whole fun specifier member => ?_
    by_contra absent
    exact unused
      (List.any_eq_true.2 ⟨specifier, member, by simpa [SourceUnit.isUnused] using absent⟩)

/-- What a statement is left with keeps all of it that is mentioned. -/
theorem keeps_of_leftOf (oneList : statement.contents.OneList) {left : ImportContents}
    (leavesLeft : left ∈ statement.leftOf mentioned) : Keeps mentioned statement.contents left := by
  have leaves : statement.Leaves mentioned (statement.leftOf mentioned) := leaves_leftOf oneList
  rw [Option.mem_def.1 leavesLeft] at leaves
  cases leaves with
  | whole _ => exact .refl _ _
  | list kept each =>
    refine ⟨rfl, rfl, rfl, rfl, fun specifier member isMentioned => ?_, fun specifier member => ?_⟩
    · obtain ⟨own, ownMember, rfl⟩ := List.mem_map.1 member
      exact List.mem_map_of_mem ((each own).2 ⟨ownMember, isMentioned⟩)
    · obtain ⟨own, ownMember, rfl⟩ := List.mem_map.1 member
      exact .inl (List.mem_map_of_mem ((each own).1 ownMember).1)
  | default name default noSpace unused =>
    refine ⟨rfl, rfl, default.symm, noSpace.symm, fun specifier member isMentioned => ?_, by simp⟩
    obtain ⟨own, ownMember, rfl⟩ := List.mem_map.1 member
    exact absurd isMentioned (unused own ownMember)

/-- A statement of which nothing is left is not needed. -/
theorem not_isNeeded_of_leftOf (oneList : statement.contents.OneList)
    (nothing : statement.leftOf mentioned = none) : ¬ IsNeeded mentioned statement.contents := by
  have leaves : statement.Leaves mentioned (statement.leftOf mentioned) := leaves_leftOf oneList
  rw [nothing] at leaves
  cases leaves with
  | nothing noDefault noSpace named unused =>
    rintro (default | space | none | ⟨specifier, member, isMentioned⟩)
    · exact default noDefault
    · exact space noSpace
    · exact named (List.map_eq_nil_iff.1 none)
    · obtain ⟨own, ownMember, rfl⟩ := List.mem_map.1 member
      exact unused own ownMember isMentioned

theorem survive_leftOf {imports : List Import}
    (oneList : ∀ statement ∈ imports, statement.contents.OneList) :
    Survive mentioned (imports.map Import.contents)
      (imports.filterMap (Import.leftOf mentioned)) := by
  induction imports with
  | nil => exact .nil
  | cons first rest inductionHypothesis =>
    obtain ⟨own, others⟩ := List.forall_mem_cons.1 oneList
    have survive := inductionHypothesis others
    cases left : first.leftOf mentioned with
    | some new =>
      rw [List.filterMap_cons_some left]
      exact survive.cons (keeps_of_leftOf own left)
    | none =>
      rw [List.filterMap_cons_none left, Survive, List.map_cons,
        List.filter_cons_of_neg (by simpa using not_isNeeded_of_leftOf own left)]
      exact survive

/-- What a statement is left with is mentioned. -/
theorem mentioned_of_leftOf (oneList : statement.contents.OneList) {left : ImportContents}
    (leavesLeft : left ∈ statement.leftOf mentioned) :
    ∀ specifier ∈ left.named, specifier.localName ∈ mentioned := by
  have leaves : statement.Leaves mentioned (statement.leftOf mentioned) := leaves_leftOf oneList
  rw [Option.mem_def.1 leavesLeft] at leaves
  cases leaves with
  | whole each =>
    intro specifier member
    obtain ⟨own, ownMember, rfl⟩ := List.mem_map.1 member
    exact each own ownMember
  | list kept each =>
    intro specifier member
    obtain ⟨own, ownMember, rfl⟩ := List.mem_map.1 member
    exact ((each own).1 ownMember).2
  | default => simp

end

end CreatorMigration
