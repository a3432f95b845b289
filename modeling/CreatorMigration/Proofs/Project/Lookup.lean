import CreatorMigration.Project.Resolution
import CreatorMigration.Proofs.Path.Specifier
import Mathlib.Data.List.Nodup

/-! # What a specifier names

Three rules look for the unit that a specifier names: one for specifiers that start with a dot, one
for aliases and one for the last segments.

* `Resolution.Names` says what each rule answers, in terms of which units are loaded alone.
* `Resolution.unitBySegments?_eq_searchOnce` compares the search by segments with a single pass that
  gives up at the second match.
* `Resolution.resolves_exactly` says that a resolution answers what is named, and nothing else.
-/

namespace CreatorMigration

namespace Resolution

/-! ## The files of a base -/

/-- A file of TypeScript that is among the units. -/
structure Admitted (units : List Path) (path : Path) : Prop where
  extension : path.extension? = some "ts"
  loaded : units.contains path = true

/-- The first one that is admitted of `base.ts`, `base/index.ts` and the base itself. -/
inductive StandsFor (units : List Path) (base : Path) : Path → Prop where
  | file (named : Admitted units ⟨base.text ++ ".ts"⟩) : StandsFor units base ⟨base.text ++ ".ts"⟩
  | index (noFile : ¬ Admitted units ⟨base.text ++ ".ts"⟩)
      (named : Admitted units (base.under ⟨"index.ts"⟩)) :
      StandsFor units base (base.under ⟨"index.ts"⟩)
  | itself (noFile : ¬ Admitted units ⟨base.text ++ ".ts"⟩)
      (noIndex : ¬ Admitted units (base.under ⟨"index.ts"⟩)) (named : Admitted units base) :
      StandsFor units base base

variable {units : List Path} {base found : Path}

theorem admits_iff {candidate : Path} :
    admits units candidate = true ↔ Admitted units candidate := by
  rw [admits, Bool.and_eq_true, beq_iff_eq]
  exact ⟨fun both => ⟨both.1, both.2⟩, fun admitted => ⟨admitted.extension, admitted.loaded⟩⟩

theorem StandsFor.admitted (stands : StandsFor units base found) : Admitted units found := by
  cases stands with
  | file named => exact named
  | index _ named => exact named
  | itself _ _ named => exact named

theorem unitAt?_eq_some_iff : unitAt? units base = some found ↔ StandsFor units base found := by
  change (candidates base).find? (admits units) = some found ↔ _
  unfold candidates
  -- the candidates are tried in their order, so each one presumes that those before it are not
  -- there
  by_cases named : Admitted units ⟨base.text ++ ".ts"⟩
  · rw [List.find?_cons_of_pos (admits_iff.2 named), Option.some.injEq]
    constructor
    · rintro rfl
      exact .file named
    · intro stands
      cases stands with
      | file => rfl
      | index noFile | itself noFile => exact absurd named noFile
  · rw [List.find?_cons_of_neg fun admitted => named (admits_iff.1 admitted)]
    by_cases index : Admitted units (base.under ⟨"index.ts"⟩)
    · rw [List.find?_cons_of_pos (admits_iff.2 index), Option.some.injEq]
      constructor
      · rintro rfl
        exact .index named index
      · intro stands
        cases stands with
        | file isNamed => exact absurd isNamed named
        | index => rfl
        | itself _ noIndex => exact absurd index noIndex
    · rw [List.find?_cons_of_neg fun admitted => index (admits_iff.1 admitted),
        List.find?_singleton, Option.ite_none_right_eq_some, admits_iff]
      constructor
      · rintro ⟨admitted, same⟩
        cases same
        exact .itself named index admitted
      · intro stands
        cases stands with
        | file isNamed => exact absurd isNamed named
        | index _ isIndex => exact absurd isIndex index
        | itself _ _ admitted => exact ⟨admitted, rfl⟩

/-! ## Aliases -/

/-- The specifier starts with the alias, and what it stands for then is a unit. -/
def AliasNames (root : Path) (units : List Path) (specifier : String) (entry : String × Path)
    (found : Path) : Prop :=
  ∃ base, aliasBase? root specifier entry = some base ∧ StandsFor units base found

variable {root importer : Path} {specifier : String} {entry : String × Path}

theorem bind_unitAt?_eq_some_iff :
    (aliasBase? root specifier entry).bind (unitAt? units) = some found ↔
      AliasNames root units specifier entry found := by
  simp only [Option.bind_eq_some_iff, unitAt?_eq_some_iff, AliasNames]

theorem bind_unitAt?_eq_none_iff :
    (aliasBase? root specifier entry).bind (unitAt? units) = none ↔
      ∀ path, ¬ AliasNames root units specifier entry path := by
  simp only [Option.eq_none_iff_forall_ne_some, ne_eq, bind_unitAt?_eq_some_iff]

theorem unitAtAlias?_eq_findSome? (aliases : Dictionary Path) :
    unitAtAlias? root units specifier aliases =
      aliases.findSome? fun entry => (aliasBase? root specifier entry).bind (unitAt? units) := by
  induction aliases with
  | nil => rfl
  | cons entry rest inductionHypothesis =>
    rw [unitAtAlias?, List.findSome?_cons, inductionHypothesis]
    cases (aliasBase? root specifier entry).bind (unitAt? units) <;> rfl

/-- An alias answers if the ones in front of it do not. -/
theorem unitAtAlias?_eq_some_iff {aliases : Dictionary Path} :
    unitAtAlias? root units specifier aliases = some found ↔
      ∃ front entry back, aliases = front ++ entry :: back ∧
        (∀ other ∈ front, ∀ path, ¬ AliasNames root units specifier other path) ∧
        AliasNames root units specifier entry found := by
  simp only [unitAtAlias?_eq_findSome?, List.findSome?_eq_some_iff, bind_unitAt?_eq_some_iff,
    bind_unitAt?_eq_none_iff, and_comm]

theorem unitAtAlias?_eq_none_iff {aliases : Dictionary Path} :
    unitAtAlias? root units specifier aliases = none ↔
      ∀ entry ∈ aliases, ∀ path, ¬ AliasNames root units specifier entry path := by
  simp only [unitAtAlias?_eq_findSome?, List.findSome?_eq_none_iff, bind_unitAt?_eq_none_iff]

/-- An alias that does not answer might as well not be there. -/
theorem unitAtAlias?_erase {front back : Dictionary Path}
    (fails : ∀ path, ¬ AliasNames root units specifier entry path) :
    unitAtAlias? root units specifier (front ++ entry :: back) =
      unitAtAlias? root units specifier (front ++ back) := by
  rw [unitAtAlias?_eq_findSome?, unitAtAlias?_eq_findSome?, List.findSome?_append,
    List.findSome?_append, List.findSome?_cons, bind_unitAt?_eq_none_iff.2 fails]

/-! ## Last segments -/

/-- The specifier has at least two segments, and it is the only unit that ends with them. -/
structure IsOnlyMatch (units : List Path) (specifier : String) (found : Path) : Prop where
  long : 2 ≤ (segments specifier).length
  loaded : found ∈ units
  ends : segments specifier <:+ unitSegments found
  only : ∀ other ∈ units, segments specifier <:+ unitSegments other → other = found

theorem endsWithSegments_iff {wanted : List String} {unit : Path} :
    endsWithSegments wanted unit = true ↔ wanted <:+ unitSegments unit :=
  List.isSuffixOf_iff_suffix

theorem filter_eq_singleton_iff {α : Type} {list : List α} (once : list.Nodup) (holds : α → Bool)
    (only : α) :
    list.filter holds = [only] ↔
      only ∈ list ∧ holds only = true ∧ ∀ other ∈ list, holds other = true → other = only := by
  rw [← List.perm_singleton,
    List.perm_ext_iff_of_nodup (once.filter holds) (List.pairwise_singleton _ only)]
  simp only [List.mem_filter, List.mem_singleton]
  constructor
  · intro same
    have kept := (same only).2 rfl
    exact ⟨kept.1, kept.2, fun other member passes => (same other).1 ⟨member, passes⟩⟩
  · rintro ⟨member, passes, unique⟩ other
    refine ⟨fun kept => unique other kept.1 kept.2, ?_⟩
    rintro rfl
    exact ⟨member, passes⟩

theorem unitBySegments?_eq_some_iff (once : units.Nodup) :
    unitBySegments? units specifier = some found ↔ IsOnlyMatch units specifier found := by
  have single := filter_eq_singleton_iff once (endsWithSegments (segments specifier)) found
  simp only [endsWithSegments_iff] at single
  unfold unitBySegments?
  dsimp only
  split
  · next short =>
    constructor
    · intro answered
      cases answered
    · intro onlyMatch
      exact absurd onlyMatch.long (Nat.not_le_of_lt short)
  · next long =>
    have isOnly : IsOnlyMatch units specifier found ↔
        units.filter (endsWithSegments (segments specifier)) = [found] := by
      rw [single]
      exact ⟨fun onlyMatch => ⟨onlyMatch.loaded, onlyMatch.ends, onlyMatch.only⟩,
        fun ⟨loaded, ends, only⟩ => ⟨Nat.le_of_not_lt long, loaded, ends, only⟩⟩
    rw [isOnly]
    split
    · next other matched => rw [matched, Option.some.injEq, List.cons.injEq, and_iff_left rfl]
    · next ambiguous =>
      constructor
      · intro answered
        cases answered
      · intro matched
        exact absurd matched (ambiguous found)

/-- One pass over some units that ends at the second one that matches. -/
def searchOnce (isMatch : Path → Bool) : Option Path → List Path → Option Path
  | found, [] => found
  | found, unit :: rest =>
      if isMatch unit then
        match found with
        | none => searchOnce isMatch (some unit) rest
        | some _ => none
      else searchOnce isMatch found rest

/-- What was found before counts like a match in front. -/
theorem searchOnce_eq (isMatch : Path → Bool) (found : Option Path) (units : List Path) :
    searchOnce isMatch found units =
      match found.toList ++ units.filter isMatch with
      | [only] => some only
      | _ => none := by
  fun_induction searchOnce isMatch found units with
  | case1 found => cases found <;> rfl
  | case2 unit rest isMatched ih =>
    rw [ih, List.filter_cons_of_pos isMatched]
    rfl
  | case3 unit rest isMatched earlier =>
    rw [List.filter_cons_of_pos isMatched]
    rfl
  | case4 found unit rest unmatched ih => rw [ih, List.filter_cons_of_neg unmatched]

theorem unitBySegments?_eq_searchOnce (units : List Path) (specifier : String) :
    unitBySegments? units specifier =
      if (segments specifier).length < 2 then none
      else searchOnce (endsWithSegments (segments specifier)) none units := by
  rw [searchOnce_eq]
  rfl

/-! ## All specifiers -/

/-- What a specifier names, by the rule that applies to it. -/
inductive Names (layout : ProjectLayout) (root : Path) (units : List Path) (importer : Path)
    (specifier : String) (found : Path) : Prop where
  | relative (dotted : Text.hasStart "." specifier = true)
      (stands : StandsFor units (relativeBase importer specifier) found)
  | aliased (undotted : ¬ Text.hasStart "." specifier = true) {front back : Dictionary Path}
      {entry : String × Path} (split : layout.pathAliases = front ++ entry :: back)
      (passed : ∀ other ∈ front, ∀ path, ¬ AliasNames root units specifier other path)
      (named : AliasNames root units specifier entry found)
  | bySegments (undotted : ¬ Text.hasStart "." specifier = true)
      (passed : ∀ entry ∈ layout.pathAliases, ∀ path,
        ¬ AliasNames root units specifier entry path)
      (onlyMatch : IsOnlyMatch units specifier found)

variable {layout : ProjectLayout}

theorem resolve_eq_some_iff (once : units.Nodup) :
    resolve layout root units importer specifier = some found ↔
      Names layout root units importer specifier found := by
  unfold resolve
  by_cases dotted : Text.hasStart "." specifier = true
  · rw [if_pos dotted, unitAt?_eq_some_iff]
    constructor
    · exact .relative dotted
    · intro names
      cases names with
      | relative _ stands => exact stands
      | aliased undotted | bySegments undotted => exact absurd dotted undotted
  · rw [if_neg dotted]
    -- segments are only looked at if no alias has answered
    cases answered : unitAtAlias? root units specifier layout.pathAliases with
    | some other =>
      obtain ⟨front, entry, back, split, passed, named⟩ := unitAtAlias?_eq_some_iff.1 answered
      constructor
      · rintro ⟨⟩
        exact .aliased dotted split passed named
      · intro names
        cases names with
        | relative isDotted => exact absurd isDotted dotted
        | aliased _ otherSplit otherPassed otherNamed =>
          exact answered.symm.trans
            (unitAtAlias?_eq_some_iff.2 ⟨_, _, _, otherSplit, otherPassed, otherNamed⟩)
        | bySegments _ nonePassed =>
          rw [unitAtAlias?_eq_none_iff.2 nonePassed] at answered
          cases answered
    | none =>
      have passed := unitAtAlias?_eq_none_iff.1 answered
      change unitBySegments? units specifier = some found ↔ _
      rw [unitBySegments?_eq_some_iff once]
      constructor
      · exact .bySegments dotted passed
      · intro names
        cases names with
        | relative isDotted => exact absurd isDotted dotted
        | aliased _ split _ named =>
          exact absurd named (passed _ (split ▸ by simp) found)
        | bySegments _ _ onlyMatch => exact onlyMatch

theorem Names.contains (names : Names layout root units importer specifier found) :
    units.contains found = true := by
  cases names with
  | relative _ stands => exact stands.admitted.loaded
  | aliased _ _ _ named =>
    obtain ⟨_, _, stands⟩ := named
    exact stands.admitted.loaded
  | bySegments _ _ onlyMatch =>
    rw [List.contains_eq_any_beq, List.any_eq_true]
    exact ⟨found, onlyMatch.loaded, Path.beq_iff.2 rfl⟩

/-! ## In whatever order the units are listed -/

section

variable {others : List Path} (same : others.Perm units)

include same

theorem unitAt?_perm : unitAt? others = unitAt? units := by
  funext base
  unfold unitAt?
  refine congrArg (List.find? · (candidates base)) (funext fun candidate => ?_)
  rw [same.contains_eq]

theorem unitAtAlias?_perm (aliases : Dictionary Path) :
    unitAtAlias? root others specifier aliases = unitAtAlias? root units specifier aliases := by
  rw [unitAtAlias?_eq_findSome?, unitAtAlias?_eq_findSome?, unitAt?_perm same]

theorem unitBySegments?_perm (once : units.Nodup) :
    unitBySegments? others specifier = unitBySegments? units specifier := by
  refine Option.ext fun found => ?_
  rw [unitBySegments?_eq_some_iff once, unitBySegments?_eq_some_iff (same.nodup_iff.2 once)]
  constructor
  · rintro ⟨long, loaded, ends, only⟩
    exact ⟨long, same.mem_iff.1 loaded, ends, fun other member => only other (same.mem_iff.2 member)⟩
  · rintro ⟨long, loaded, ends, only⟩
    exact ⟨long, same.mem_iff.2 loaded, ends, fun other member => only other (same.mem_iff.1 member)⟩

theorem resolve_perm (once : units.Nodup) :
    resolve layout root others importer specifier =
      resolve layout root units importer specifier := by
  unfold resolve
  rw [unitAt?_perm same, unitAtAlias?_perm same, unitBySegments?_perm same once]

end

/-! ## The promise -/

/-- What the resolution of a specifier promises. -/
structure ResolvesExactly (layout : ProjectLayout) (root : Path) (units : List Path)
    (importer : Path) (specifier : String) : Prop where
  /-- The unit that is named is answered, and nothing else. -/
  answer_iff : ∀ found, resolve layout root units importer specifier = some found ↔
    Names layout root units importer specifier found
  contains : ∀ found, resolve layout root units importer specifier = some found →
    units.contains found = true
  /-- An alias that does not answer changes nothing. -/
  passesOn : ∀ front entry back, layout.pathAliases = front ++ entry :: back →
    (∀ path, ¬ AliasNames root units specifier entry path) →
      resolve layout root units importer specifier =
        resolve { layout with pathAliases := front ++ back } root units importer specifier
  bySegments_iff : ∀ found, unitBySegments? units specifier = some found ↔
    IsOnlyMatch units specifier found
  anyOrder : ∀ others, others.Perm units →
    resolve layout root others importer specifier = resolve layout root units importer specifier

/-- Among units that are listed once each, a specifier is resolved to the unit that it names. -/
theorem resolves_exactly (layout : ProjectLayout) (root importer : Path) (specifier : String)
    {units : List Path} (once : units.Nodup) :
    ResolvesExactly layout root units importer specifier where
  answer_iff _ := resolve_eq_some_iff once
  contains _ answered := ((resolve_eq_some_iff once).1 answered).contains
  passesOn front entry back split fails := by
    unfold resolve
    rw [split, unitAtAlias?_erase fails]
  bySegments_iff _ := unitBySegments?_eq_some_iff once
  anyOrder _ same := resolve_perm same once

/-- Two units that end alike, and one that only the second alias leads to. -/
def endingAlike : List Path := [⟨"lib/a/x.ts"⟩, ⟨"src/a/x/index.ts"⟩, ⟨"src/b/y.ts"⟩]

def laterAlias : ProjectLayout :=
  { pathAliases := [("@/", ⟨"gone"⟩), ("@/b/", ⟨"src/b"⟩)] }

theorem resolves_exactly_endingAlike :
    endingAlike.Nodup ∧ ResolvesExactly laterAlias ⟨""⟩ endingAlike ⟨"u.ts"⟩ "@/b/y" ∧
      ResolvesExactly laterAlias ⟨""⟩ endingAlike ⟨"u.ts"⟩ "a/x" := by
  have once : endingAlike.Nodup := List.Nodup.of_map Path.text (by decide)
  exact ⟨once, resolves_exactly laterAlias ⟨""⟩ ⟨"u.ts"⟩ "@/b/y" once,
    resolves_exactly laterAlias ⟨""⟩ ⟨"u.ts"⟩ "a/x" once⟩

example : (resolve laterAlias ⟨""⟩ endingAlike ⟨"u.ts"⟩ "@/b/y").map Path.text = some "src/b/y.ts" ∧
    (resolve laterAlias ⟨""⟩ endingAlike ⟨"u.ts"⟩ "a/x").map Path.text = none := by decide

end Resolution

end CreatorMigration
