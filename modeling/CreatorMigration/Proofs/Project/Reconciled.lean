import CreatorMigration.Proofs.Project.Exporters
import CreatorMigration.Proofs.Project.Saving
import CreatorMigration.Proofs.Unit.Exports
import CreatorMigration.Proofs.Unit.ImportEdits
import Mathlib.Logic.Relation

/-! # Reconciled imports

`Project.reconciles_of_alignImports` says what an alignment leaves, as long as each changed text is
read as it was written: the imports of what is mentioned, with nothing else changed, and nothing to
do for a second alignment.
-/

namespace CreatorMigration

open ImportContents Relation Update

/-! ## Texts that are read as they were written -/

/-- The changed unit has the code of the unit, and its imports say what was written. -/
def SourceUnit.readsAs (unit changed : SourceUnit) (contents : List ImportContents) : Bool :=
  unit.sameCode changed && decide (changed.imports.map Import.contents = contents)

/-- The unit with more names among its imports, all of them mentioned. -/
structure SourceUnit.Gains (mentioned : List String) (unit changed : SourceUnit) : Prop where
  code : unit.sameCode changed = true
  imports : Survive mentioned (unit.imports.map Import.contents)
    (changed.imports.map Import.contents)
  changes : ReflTransGen SourceUnit.ChangesImports unit changed

namespace SourceUnit

variable {mentioned : List String} {unit changed last : SourceUnit}

theorem Gains.refl (unit : SourceUnit) : Gains mentioned unit unit :=
  ⟨unit.sameCode_refl, .refl _, .refl⟩

theorem Gains.trans (first : Gains mentioned unit changed) (second : Gains mentioned changed last) :
    Gains mentioned unit last :=
  ⟨sameCode_trans first.code second.code, first.imports.trans second.imports,
    first.changes.trans second.changes⟩

theorem hasImportOf_of_survive (survive : Survive mentioned (unit.imports.map Import.contents)
      (changed.imports.map Import.contents)) {name : String} (isMentioned : name ∈ mentioned)
    (bound : unit.HasImportOf name) : changed.HasImportOf name := by
  obtain ⟨contents, member, binds⟩ := hasImportOf_iff.1 bound
  obtain ⟨new, newMember, keeps⟩ :=
    survive.exists_keeps member (isNeeded_of_mem_localNames isMentioned binds)
  exact hasImportOf_iff.2 ⟨new, newMember, keeps.localNames isMentioned binds⟩

end SourceUnit

namespace Project

/-! ## Where a name is imported from -/

/-- Where a name is to be imported from, and which statements import from there. -/
def importOf? (table : ImportTable) (path : Path) (name : String) (project : Project) :
    Option (String × (Import → Bool)) :=
  match table.find? name with
  | some module => some (module, fun statement => statement.source == module)
  | none => (project.exporter? path name).map fun target =>
      (path.relativeSpecifier target,
        fun statement => (project.resolve path statement.source).any (· == target))

theorem bringIn_eq (table : ImportTable) (path : Path) (name : String) (project : Project) :
    bringIn table path name project =
      (project.importOf? table path name).elim (.ok false project) fun place =>
        importName path name place.1 place.2 project := by
  unfold bringIn importOf?
  cases table.find? name with
  | some module => rfl
  | none =>
    dsimp only
    rw [Update.bind_of_ok (Update.get_eq_ok_iff.2 ⟨rfl, rfl⟩)]
    cases project.exporter? path name with
    | none => rfl
    | some target => rfl

/-- The specifiers by which a name may be imported: that of the library, or else those that lead to
the unit that is chosen among the exporters. -/
inductive IsOffered (table : ImportTable) (path : Path) (name : String) (project : Project) :
    (String → Prop) → Prop where
  | library {module : String} (listed : table.find? name = some module) :
      IsOffered table path name project (· = module)
  | unit {target : Path} (unlisted : table.find? name = none)
      (chosen : project.exporter? path name = some target) :
      IsOffered table path name project (project.LeadsTo path target)

section

variable {table : ImportTable} {path : Path} {name : String} {specifiers : String → Prop}
  {project other : Project}

theorem IsOffered.exists_importOf? (offered : IsOffered table path name project specifiers) :
    ∃ module isSameModule, project.importOf? table path name = some (module, isSameModule) ∧
      specifiers module ∧
      ∀ statement, isSameModule statement = true → specifiers statement.source := by
  cases offered with
  | @library module listed =>
    exact ⟨module, _, by rw [importOf?, listed], rfl, fun _ same => eq_of_beq same⟩
  | @unit target unlisted chosen =>
    refine ⟨path.relativeSpecifier target,
      fun statement => (project.resolve path statement.source).any (· == target), ?_, .inl rfl, ?_⟩
    · rw [importOf?, unlisted, chosen]
      rfl
    · exact fun _ same => .inr ((Option.any_eq_true _ _).1 same)

/-- What is not offered is not imported. -/
theorem importOf?_eq_none (nowhere : ∀ specifiers, ¬ IsOffered table path name project specifiers) :
    project.importOf? table path name = none := by
  unfold importOf?
  cases listed : table.find? name with
  | some module => exact absurd (.library listed) (nowhere _)
  | none =>
    cases chosen : project.exporter? path name with
    | none => rfl
    | some target => exact absurd (.unit listed chosen) (nowhere _)

variable {unit changed : SourceUnit}

/-- Where the unit at the path exports the same names, all units do. -/
theorem SameBut.exporters_eq_of_sameCode (same : SameBut path project other)
    (found : project.unit? path = some unit) (foundThen : other.unit? path = some changed)
    (code : unit.sameCode changed = true) (name : String) :
    other.exporters name = project.exporters name := by
  have only {either : Project} {own : SourceUnit} (foundOwn : either.unit? path = some own) :
      ∀ any ∈ either.units, (any.path == path.normalize) = true → any = own := by
    intro any member samePath
    exact Option.some.inj ((either.unit?_eq_some_iff.2 ⟨member, samePath⟩).symm.trans foundOwn)
  have related := same.units
  have onlyOld := only found
  have onlyNew := only foundThen
  unfold exporters
  -- the induction is on the lists alone, so what is known of the unit at the path is taken along
  generalize project.units = olds at related onlyOld
  generalize other.units = news at related onlyNew
  induction related with
  | nil => rfl
  | @cons old new _ _ kept _ inductionHypothesis =>
    obtain ⟨firstOld, restOld⟩ := List.forall_mem_cons.1 onlyOld
    obtain ⟨firstNew, restNew⟩ := List.forall_mem_cons.1 onlyNew
    have exports : new.exportedNames = old.exportedNames := by
      cases own : old.path == path.normalize with
      | false => rw [kept.2 own]
      | true =>
        rw [firstOld own, firstNew (kept.1 ▸ own), SourceUnit.exportedNames_eq_of_sameCode code]
    rw [List.filter_cons, List.filter_cons, exports]
    split
    · rw [List.map_cons, List.map_cons, kept.1, inductionHypothesis restOld restNew]
    · exact inductionHypothesis restOld restNew

theorem SameBut.isOffered_iff (same : SameBut path project other)
    (found : project.unit? path = some unit) (foundThen : other.unit? path = some changed)
    (code : unit.sameCode changed = true) :
    IsOffered table path name other specifiers ↔ IsOffered table path name project specifiers := by
  have exporter : other.exporter? path name = project.exporter? path name := by
    rw [exporter?, exporter?, same.exporters_eq_of_sameCode found foundThen code]
  constructor
  · intro offered
    cases offered with
    | library listed => exact .library listed
    | unit unlisted chosen =>
      rw [same.leadsTo_eq]
      exact .unit unlisted (exporter ▸ chosen)
  · intro offered
    cases offered with
    | library listed => exact .library listed
    | unit unlisted chosen =>
      rw [← same.leadsTo_eq]
      exact .unit unlisted (exporter.trans chosen)

end

/-! ## Bringing in names -/

/-- Whether the unit at the path is read as it was written when a name was brought in. -/
def readsWith (table : ImportTable) (path : Path) (name : String) (project between : Project) :
    Bool :=
  match project.importOf? table path name, project.unit? path, between.unit? path with
  | some (module, isSameModule), some unit, some changed =>
      decide (unit.HasImportOf name) ||
        unit.readsAs changed (importsWith name module isSameModule unit.imports)
  | _, _, _ => true

/-- Whether the unit is read as it was written each time that a name is brought in. -/
def readsThrough (table : ImportTable) (path : Path) : List String → Project → Bool
  | [], _ => true
  | name :: rest, project =>
      match bringIn table path name project with
      | .ok _ between =>
          readsWith table path name project between && readsThrough table path rest between
      | .error _ _ => true

section

variable {table : ImportTable} {path : Path} {mentioned : List String} {unit : SourceUnit}

/-- A name that is brought in is imported, and no other one. -/
theorem exists_gains_of_bringIn {name : String} {project between : Project} {added : Bool}
    (ran : bringIn table path name project = .ok added between)
    (reads : readsWith table path name project between = true)
    (found : project.unit? path = some unit) (isMentioned : name ∈ mentioned) :
    ∃ changed, between.unit? path = some changed ∧ unit.Gains mentioned changed ∧
      (∀ other, other ≠ name → changed.HasImportOf other → unit.HasImportOf other) ∧
      (¬ unit.HasImportOf name → ∀ specifiers, IsOffered table path name project specifiers →
        ∃ contents ∈ changed.imports.map Import.contents, contents.IsImportOf name specifiers) := by
  rw [bringIn_eq] at ran
  cases imported : project.importOf? table path name with
  | none =>
    rw [imported] at ran
    cases ran
    refine ⟨unit, found, .refl unit, fun _ _ bound => bound, fun _ specifiers offered => ?_⟩
    obtain ⟨_, _, offers, _⟩ := offered.exists_importOf?
    cases imported.symm.trans offers
  | some place =>
    obtain ⟨module, isSameModule⟩ := place
    rw [imported] at ran
    obtain ⟨own, foundOwn, ⟨rfl, rfl, bound⟩ | ⟨rfl, unbound, edit, made, applied⟩⟩ :=
      importName_eq_ok ran
    · cases found.symm.trans foundOwn
      exact ⟨unit, found, .refl unit, fun _ _ bound => bound, fun unbound => absurd bound unbound⟩
    · cases found.symm.trans foundOwn
      obtain ⟨old, changed, foundOld, changes, foundThen⟩ := unit?_of_apply applied
      cases found.symm.trans foundOld
      -- a statement was added or joined, and the text is assumed to be read that way
      have written :
          unit.readsAs changed (importsWith name module isSameModule unit.imports) = true := by
        simpa [readsWith, imported, found, foundThen, unbound] using reads
      obtain ⟨code, contents⟩ := Bool.and_eq_true_iff.1 written
      have contents := of_decide_eq_true contents
      refine ⟨changed, foundThen, ⟨code, ?_, .single ⟨[edit], ?_, changes⟩⟩, ?_, ?_⟩
      · rw [contents]
        exact survive_importsWith isMentioned _
      · exact List.forall_mem_singleton.2 (SourceUnit.editsImports_of_importEdit? made)
      · intro other different bound
        obtain ⟨new, member, binds⟩ := SourceUnit.hasImportOf_iff.1 bound
        rw [contents] at member
        obtain ⟨statement, statementMember, names⟩ :=
          mem_localNames_importsWith member different binds
        exact SourceUnit.hasImportOf_iff.2 ⟨_, List.mem_map_of_mem statementMember, names⟩
      · intro _ specifiers offered
        obtain ⟨_, _, offers, own, same⟩ := offered.exists_importOf?
        cases imported.symm.trans offers
        rw [contents]
        exact exists_isImportOf_importsWith own same _

/-- All names that are brought in are imported from where they were offered at the start. -/
theorem exists_gains_of_bringInAll {names brought : List String} {project result : Project}
    (ran : bringInAll table path names project = .ok brought result)
    (reads : readsThrough table path names project = true)
    (found : project.unit? path = some unit) (areMentioned : ∀ name ∈ names, name ∈ mentioned)
    (once : names.Nodup) :
    ∃ changed, result.unit? path = some changed ∧ unit.Gains mentioned changed ∧
      ∀ name ∈ names, ¬ unit.HasImportOf name → ∀ specifiers,
        IsOffered table path name project specifiers →
        ∃ contents ∈ changed.imports.map Import.contents, contents.IsImportOf name specifiers := by
  induction names generalizing project unit brought with
  | nil =>
    obtain ⟨_, rfl⟩ := Update.pure_eq_ok_iff.1 ran
    exact ⟨unit, found, .refl unit, by simp⟩
  | cons first rest inductionHypothesis =>
    obtain ⟨added, between, others, step, ranRest, rfl⟩ := bringInAll_cons_eq_ok ran
    obtain ⟨absent, onceRest⟩ := List.nodup_cons.1 once
    obtain ⟨isMentioned, restMentioned⟩ := List.forall_mem_cons.1 areMentioned
    rw [readsThrough, step] at reads
    obtain ⟨readsFirst, readsRest⟩ := Bool.and_eq_true_iff.1 reads
    obtain ⟨changed, foundThen, gains, onlyFirst, imports⟩ :=
      exists_gains_of_bringIn step readsFirst found isMentioned
    obtain ⟨last, foundLast, gainsThen, importsThen⟩ :=
      inductionHypothesis ranRest readsRest foundThen restMentioned onceRest
    refine ⟨last, foundLast, gains.trans gainsThen, ?_⟩
    intro name member unbound specifiers offered
    cases member with
    | head =>
      obtain ⟨contents, contentsMember, isImport⟩ := imports unbound specifiers offered
      obtain ⟨new, newMember, keeps⟩ := gainsThen.imports.exists_keeps contentsMember
        (isNeeded_of_mem_localNames isMentioned isImport.mem_localNames)
      exact ⟨new, newMember, isImport.of_keeps keeps isMentioned⟩
    | tail _ later =>
      have different : name ≠ first := fun equal => absent (equal ▸ later)
      -- the name is offered where it was, as only the imports of the unit have changed
      have same : SameBut path project between := (changesOnly_bringIn table first).sameBut step
      have unboundThen : ¬ changed.HasImportOf name := fun bound =>
        unbound (onlyFirst name different bound)
      exact importsThen name later unboundThen specifiers
        ((same.isOffered_iff found foundThen gains.code).2 offered)

end

/-! ## The whole alignment -/

/-- Whether the unit is read as it was written each time that the alignment changes it. -/
def readsAligned (table : ImportTable) (path : Path) (project result : Project) : Bool :=
  match project.unit? path with
  | none => true
  | some before =>
      readsThrough table path before.namesMissing project &&
        match bringInAll table path before.namesMissing project with
        | .ok _ between =>
            match between.unit? path, result.unit? path with
            | some unit, some after =>
                unit.readsAs after (unit.imports.filterMap (Import.leftOf before.namesUsed))
            | _, _ => true
        | .error _ _ => true

/-- What an alignment of the unit at a path leaves. All imports that are left are mentioned, all
that are mentioned are left, and what is missing is imported from where it is offered. Nothing else
changes, neither in the unit nor in the others. -/
structure Reconciles (table : ImportTable) (path : Path) (project result : Project)
    (before after : SourceUnit) : Prop where
  used : after.namesUsed = before.namesUsed
  onlyUsed : ∀ statement ∈ after.imports, ∀ specifier ∈ statement.named,
    specifier.localName ∈ after.namesUsed
  survive : Survive before.namesUsed (before.imports.map Import.contents)
    (after.imports.map Import.contents)
  imported : ∀ name ∈ before.namesUsed, name ∉ before.namesBound → ¬ before.HasImportOf name →
    ∀ specifiers, IsOffered table path name project specifiers →
      ∃ contents ∈ after.imports.map Import.contents, contents.IsImportOf name specifiers
  code : before.sameCode after = true
  changes : ReflTransGen SourceUnit.ChangesImports before after
  elsewhere : SameBut path project result

theorem replaceUnit_self {project : Project} {unit : SourceUnit} (member : unit ∈ project.units) :
    project.replaceUnit unit = project := by
  have same : project.replaceUnit unit = project.mapUnits id fun _ => rfl := by
    refine mapUnits_congr fun other otherMember => ?_
    by_cases equal : (other.path == unit.path) = true
    · cases project.eq_of_path_beq otherMember member equal
      simp
    · simp [equal]
  rw [same, mapUnits]
  simp

section

variable {table : ImportTable} {path : Path} {project result : Project} {before after : SourceUnit}

theorem bringInAll_eq_ok_nil {names : List String}
    (each : ∀ name ∈ names, bringIn table path name project = .ok false project) :
    bringInAll table path names project = .ok [] project := by
  induction names with
  | nil => rfl
  | cons name rest inductionHypothesis =>
    obtain ⟨first, others⟩ := List.forall_mem_cons.1 each
    rw [bringInAll, Update.bind_of_ok first, Update.bind_of_ok (inductionHypothesis others)]
    rfl

/-- Nothing is done when all that is missing is imported or is offered nowhere, and all imports are
mentioned. -/
theorem alignImports_eq_ok_nil (found : project.unit? path = some before)
    (missing : ∀ name ∈ before.namesMissing,
      before.HasImportOf name ∨ project.importOf? table path name = none)
    (onlyUsed : ∀ statement ∈ before.imports, ∀ specifier ∈ statement.named,
      specifier.localName ∈ before.namesUsed) :
    alignImports table path project = .ok ⟨[], []⟩ project := by
  have brought : bringInAll table path before.namesMissing project = .ok [] project := by
    refine bringInAll_eq_ok_nil fun name member => ?_
    rw [bringIn_eq]
    cases imported : project.importOf? table path name with
    | none => rfl
    | some place =>
      have bound : before.HasImportOf name :=
        (missing name member).resolve_right (by simp [imported])
      rw [Option.elim_some, importName, Update.bind_of_ok (Update.require_eq_ok_iff.2 ⟨found, rfl⟩),
        SourceUnit.importEdit?_eq_none_iff.2 bound]
      rfl
  have noneUnused : ∀ statement ∈ before.imports, ∀ specifier ∈ statement.named,
      SourceUnit.isUnused before.namesUsed specifier = false := by
    intro statement member specifier specifierMember
    simpa [SourceUnit.isUnused] using onlyUsed statement member specifier specifierMember
  have noEdits : before.unusedImportEdits before.namesUsed = [] := by
    refine List.filterMap_eq_nil_iff.2 fun statement member => if_neg ?_
    simpa using noneUnused statement member
  have noNames : before.unusedImports before.namesUsed = [] := by
    refine List.flatMap_eq_nil_iff.2 fun statement member => ?_
    simpa using noneUnused statement member
  -- writing no edits still replaces the unit, but by itself
  have applied : Update.apply path [] project = .ok () project := by
    have same := replaceUnit_self (project.unit?_eq_some_iff.1 found).1
    refine Update.apply_eq_ok_iff.2 ?_
    simp [apply, require, found, SourceUnit.apply, same, bind, Except.bind]
  rw [alignImports, Update.bind_of_ok (Update.require_eq_ok_iff.2 ⟨found, rfl⟩),
    Update.bind_of_ok brought, Update.bind_of_ok (Update.require_eq_ok_iff.2 ⟨found, rfl⟩), noEdits,
    Update.bind_of_ok applied, noNames]
  rfl

/-- What is left of the imports of a unit is mentioned. -/
theorem onlyUsed_of_leftOf {unit : SourceUnit} {mentioned : List String}
    (contents : after.imports.map Import.contents =
      unit.imports.filterMap (Import.leftOf mentioned)) :
    ∀ statement ∈ after.imports, ∀ specifier ∈ statement.named,
      specifier.localName ∈ mentioned := by
  intro statement member specifier specifierMember
  have left : statement.contents ∈ unit.imports.filterMap (Import.leftOf mentioned) := by
    rw [← contents]
    exact List.mem_map_of_mem member
  obtain ⟨own, ownMember, leaves⟩ := List.mem_filterMap.1 left
  exact mentioned_of_leftOf (SourceUnit.oneList_of_mem_imports ownMember) leaves specifier.contents
    (List.mem_map_of_mem specifierMember)

theorem exists_reconciles {changes : ImportDifference}
    (ran : alignImports table path project = .ok changes result)
    (reads : readsAligned table path project result = true) :
    ∃ before after, project.unit? path = some before ∧ result.unit? path = some after ∧
      Reconciles table path project result before after := by
  obtain ⟨before, brought, between, unit, found, all, foundUnit, applied, rfl⟩ :=
    alignImports_eq_ok ran
  obtain ⟨old, after, foundOld, changed, foundAfter⟩ := unit?_of_apply applied
  cases foundUnit.symm.trans foundOld
  obtain ⟨readsAll, written⟩ : readsThrough table path before.namesMissing project = true ∧
      unit.readsAs after (unit.imports.filterMap (Import.leftOf before.namesUsed)) = true := by
    simpa [readsAligned, found, all, foundUnit, foundAfter] using reads
  obtain ⟨last, foundLast, gains, imports⟩ := exists_gains_of_bringInAll all readsAll found
    (fun name member => (mem_namesMissing.1 member).1) (nodup_namesMissing before)
  cases foundUnit.symm.trans foundLast
  obtain ⟨codeThen, contents⟩ := Bool.and_eq_true_iff.1 written
  have contents := of_decide_eq_true contents
  -- first the imports gain what is missing, and then they lose what is not mentioned
  have left : Survive before.namesUsed (unit.imports.map Import.contents)
      (after.imports.map Import.contents) := by
    rw [contents]
    exact survive_leftOf fun statement => SourceUnit.oneList_of_mem_imports
  have code : before.sameCode after = true := SourceUnit.sameCode_trans gains.code codeThen
  have used : after.namesUsed = before.namesUsed := (SourceUnit.namesUsed_eq_of_sameCode code).symm
  refine ⟨before, after, found, foundAfter, used, ?_, gains.imports.trans left, ?_, code, ?_, ?_⟩
  · rw [used]
    exact onlyUsed_of_leftOf contents
  · intro name isUsed unbound noImport specifiers offered
    obtain ⟨new, newMember, isImport⟩ :=
      imports name (mem_namesMissing.2 ⟨isUsed, unbound⟩) noImport specifiers offered
    obtain ⟨kept, keptMember, keeps⟩ :=
      left.exists_keeps newMember (isNeeded_of_mem_localNames isUsed isImport.mem_localNames)
    exact ⟨kept, keptMember, isImport.of_keeps keeps isUsed⟩
  · refine gains.changes.tail ⟨_, fun edit member => ?_, changed⟩
    exact SourceUnit.editsImports_of_mem_unusedImportEdits member
  · exact ((changesOnly_bringInAll table _).sameBut all).trans (sameBut_apply applied)

/-- There is nothing to do for a second alignment, unless a name is missing by now that an import
statement bound without importing it. -/
theorem Reconciles.alignImports_eq_ok_nil
    (reconciles : Reconciles table path project result before after)
    (found : project.unit? path = some before) (foundAfter : result.unit? path = some after)
    (plain : ∀ name ∈ before.namesUsed,
      name ∈ SourceUnit.bindingsIn before.text before.importNodes →
        before.HasImportOf name ∨ name ∈ after.namesBound) :
    alignImports table path result = .ok ⟨[], []⟩ result := by
  refine Project.alignImports_eq_ok_nil foundAfter (fun name missing => ?_) reconciles.onlyUsed
  obtain ⟨isUsed, unbound⟩ := mem_namesMissing.1 missing
  rw [reconciles.used] at isUsed
  by_cases bound : name ∈ before.namesBound
  · cases SourceUnit.mem_namesBound_iff_code.1 bound with
    -- what the code binds is still bound, so only an import statement can have bound the name
    | inl inCode =>
      rw [SourceUnit.bindingsIn_code_eq reconciles.code] at inCode
      exact absurd (SourceUnit.mem_namesBound_iff_code.2 (.inl inCode)) unbound
    | inr inImports =>
      have imported := (plain name isUsed inImports).resolve_right unbound
      exact .inl (SourceUnit.hasImportOf_of_survive reconciles.survive isUsed imported)
  · by_cases imported : before.HasImportOf name
    · exact .inl (SourceUnit.hasImportOf_of_survive reconciles.survive isUsed imported)
    · by_cases offered : ∃ specifiers, IsOffered table path name project specifiers
      · obtain ⟨specifiers, offered⟩ := offered
        obtain ⟨new, newMember, isImport⟩ :=
          reconciles.imported name isUsed bound imported specifiers offered
        exact .inl (SourceUnit.hasImportOf_iff.2 ⟨new, newMember, isImport.mem_localNames⟩)
      · refine .inr (importOf?_eq_none fun specifiers offeredThen => offered ⟨specifiers, ?_⟩)
        exact (reconciles.elsewhere.isOffered_iff found foundAfter reconciles.code).1 offeredThen

end

/-- An import that is not mentioned, and a name of the library `n` that is. -/
def unalignedImports : Project :=
  ofSources ⟨""⟩ {} [(⟨"u.ts"⟩, "import\x7ba\x7dfrom'm';x")]

/-- An import statement that is taken out with a parameter in its attributes. -/
def parameterInAttribute : Project :=
  ofSources ⟨""⟩ {} [(⟨"x.ts"⟩, "export const x = 1;"),
    (⟨"u.ts"⟩, "import \x7b A \x7d from './a' with \x7b type: (x) => x \x7d;\nf(x);")]

end Project

end CreatorMigration
