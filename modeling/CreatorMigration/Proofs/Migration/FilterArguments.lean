import CreatorMigration.Proofs.CallForms
import CreatorMigration.Proofs.Migration.PassRounds
import CreatorMigration.Proofs.Tree.Names

/-! # Arguments of filters

The filter pass is meant to rename: identifiers and dotted names become the factories of their last
segments, bootstrap markers and arguments of any other form stay. It cuts the text of an argument at
its last dot, whatever the form of the argument.

* `writesByName_iff`: when the text that the pass writes for an argument is the one that is meant.
* `FilterCall.filtered_filtered`: a written call is written the same way again.
* `renamesOnlyNames_iff`: the pass over a pipeline only renames exactly when each argument of a
  filter is a marker, a name that is cut before its last segment, or left alone by the cut.
-/

namespace CreatorMigration

open Project Update Token

/-! ## Arguments -/

/-- What the pass is to write for an argument. -/
structure WritesByName (config : Config) (argument : String) : Prop where
  marker : Pass.isMarker config argument = true → Pass.filterArgument config argument = argument
  name : ∀ last, IsDottedName argument last → Pass.isMarker config argument = false →
    Pass.filterArgument config argument = factoryName last
  other : (∀ last, ¬ IsDottedName argument last) → Pass.filterArgument config argument = argument

/-- The arguments for which cutting at the last dot comes to what the pass is to write. -/
inductive CutsToName (config : Config) (argument : String) : Prop where
  | marker (isMarker : Pass.isMarker config argument = true)
  /-- Nothing but blanks stands between the last dot and the last segment, and no comment. -/
  | name {last : String} (dotted : IsDottedName argument last)
      (behind : unqualified argument = last)
  /-- There is no dot, no blank around the text and no capital letter in front of it. -/
  | plain (form : ∀ last, ¬ IsDottedName argument last) (undotted : IsUndotted argument)
      (lower : Text.decapitalize (Text.trim argument) = argument)

section

variable {config : Config} {argument : String}

theorem filterArgument_of_isMarker (marker : Pass.isMarker config argument = true) :
    Pass.filterArgument config argument = argument := by
  rw [Pass.filterArgument, if_pos marker]

theorem filterArgument_eq_factoryName (marker : Pass.isMarker config argument = false) :
    Pass.filterArgument config argument = factoryName argument := by
  rw [Pass.filterArgument, marker]
  rfl

theorem factoryName_of_undotted (undotted : IsUndotted argument) :
    factoryName argument = Text.decapitalize (Text.trim argument) := by
  rw [factoryName, unqualified, Text.afterLast_of_notMem undotted]

theorem writesByName_iff : WritesByName config argument ↔ CutsToName config argument := by
  constructor
  · intro writes
    cases marker : Pass.isMarker config argument with
    | true => exact .marker marker
    | false =>
      have written := filterArgument_eq_factoryName marker
      by_cases named : ∃ last, IsDottedName argument last
      · obtain ⟨last, dotted⟩ := named
        refine .name dotted (dotted.factoryName_eq_iff.1 ?_)
        rw [← written, writes.name last dotted marker]
      -- what is no dotted name has to stay, so it is what the factory name is, which has no dot
      · have form : ∀ last, ¬ IsDottedName argument last := fun last dotted => named ⟨last, dotted⟩
        have same : factoryName argument = argument := by rw [← written, writes.other form]
        have undotted : IsUndotted argument := by
          rw [← same]
          exact isUndotted_factoryName argument
        exact .plain form undotted (by rw [← factoryName_of_undotted undotted, same])
  · rintro (marker | ⟨dotted, behind⟩ | ⟨form, undotted, lower⟩)
    · have same := filterArgument_of_isMarker marker
      exact ⟨fun _ => same, fun _ _ noMarker => by simp [marker] at noMarker, fun _ => same⟩
    · refine ⟨filterArgument_of_isMarker, fun last dottedThen noMarker => ?_, fun form => ?_⟩
      · obtain rfl := dotted.unique dottedThen
        rw [filterArgument_eq_factoryName noMarker, dotted.factoryName_eq_iff.2 behind]
      · exact absurd dotted (form _)
    · refine ⟨filterArgument_of_isMarker, fun last dotted => absurd dotted (form last), fun _ => ?_⟩
      cases marker : Pass.isMarker config argument with
      | true => exact filterArgument_of_isMarker marker
      | false => rw [filterArgument_eq_factoryName marker, factoryName_of_undotted undotted, lower]

theorem CutsToName.isBalanced (cuts : CutsToName config argument) (balanced : IsBalanced argument) :
    IsBalanced (Pass.filterArgument config argument) := by
  have writes := writesByName_iff.2 cuts
  cases marker : Pass.isMarker config argument with
  | true => rwa [writes.marker marker]
  | false =>
    cases cuts with
    | marker isMarker =>
      rw [marker] at isMarker
      cases isMarker
    | name dotted =>
      rw [writes.name _ dotted marker]
      exact ⟨_, dotted.readsAs_factoryName⟩
    | plain form => rwa [writes.other form]

/-- What is written for an argument is written for it again. -/
theorem filterArgument_filterArgument (config : Config) (argument : String) :
    Pass.filterArgument config (Pass.filterArgument config argument) =
      Pass.filterArgument config argument := by
  cases marker : Pass.isMarker config argument with
  | true => rw [filterArgument_of_isMarker marker, filterArgument_of_isMarker marker]
  | false =>
    rw [filterArgument_eq_factoryName marker]
    cases again : Pass.isMarker config (factoryName argument) with
    | true => exact filterArgument_of_isMarker again
    | false => rw [filterArgument_eq_factoryName again, factoryName_factoryName]

end

/-! ## Calls -/

/-- The texts of a call of the filter operator. -/
structure FilterCall where
  text : String
  callee : String
  types : String
  arguments : List String
deriving DecidableEq

namespace FilterCall

def ofNode? (unit : SourceUnit) (call : Node) : Option FilterCall :=
  (call.child? .callee).map fun callee =>
    ⟨unit.textOf call, unit.textOf callee, (call.typeArguments?.map unit.textOf).getD "",
      call.callArguments.map unit.textOf⟩

def all (config : Config) (unit : SourceUnit) (pipeline : Node) : List FilterCall :=
  (pipeline.callsOf unit.text config.pipeline.filterOperator).filterMap (ofNode? unit)

/-- The call as the pass writes it. -/
def filtered (config : Config) (call : FilterCall) : FilterCall :=
  let kept := if call.arguments.any (Pass.isMarker config) then call.types else ""
  let written := call.arguments.map (Pass.filterArgument config)
  ⟨renderCall (call.callee ++ kept) written, call.callee, kept, written⟩

/-- What stands in front of the arguments, and each of them, is balanced. -/
structure IsReadable (config : Config) (call : FilterCall) : Prop where
  head : IsBalanced (call.callee ++ (call.filtered config).types)
  arguments : ∀ argument ∈ call.arguments, IsBalanced argument

theorem filterEdit?_eq (config : Config) (unit : SourceUnit) (node : Node) :
    Pass.filterEdit? config unit node =
      (ofNode? unit node).map fun call => ⟨node.span, (call.filtered config).text⟩ := by
  unfold Pass.filterEdit? ofNode?
  cases node.child? .callee with
  | none => rfl
  | some callee => rfl

theorem any_isMarker_filterArgument {config : Config} {arguments : List String}
    (some : arguments.any (Pass.isMarker config) = true) :
    (arguments.map (Pass.filterArgument config)).any (Pass.isMarker config) = true := by
  obtain ⟨argument, member, marker⟩ := List.any_eq_true.1 some
  refine List.any_eq_true.2 ⟨argument, List.mem_map.2 ⟨argument, member, ?_⟩, marker⟩
  exact filterArgument_of_isMarker marker

/-- A call with a marker keeps its type arguments and its marker, another one has lost its type
arguments already. -/
theorem filtered_filtered (config : Config) (call : FilterCall) :
    (call.filtered config).filtered config = call.filtered config := by
  have written :
      (call.arguments.map (Pass.filterArgument config)).map (Pass.filterArgument config) =
        call.arguments.map (Pass.filterArgument config) := by
    rw [List.map_map]
    exact List.map_congr_left fun argument _ => filterArgument_filterArgument config argument
  have kept : (if (call.arguments.map (Pass.filterArgument config)).any (Pass.isMarker config) then
      (call.filtered config).types else "") = (call.filtered config).types := by
    cases markers : call.arguments.any (Pass.isMarker config) with
    | true => rw [if_pos (any_isMarker_filterArgument markers)]
    | false =>
      have none : (call.filtered config).types = "" := by simp [filtered, markers]
      rw [none, ite_self]
  have same := congrArg₂ (fun (types : String) (arguments : List String) =>
    FilterCall.mk (renderCall (call.callee ++ types) arguments) call.callee types arguments)
    kept written
  exact same

end FilterCall

/-- What the pass is to make of a call: it renames names and nothing else, the written call reads as
one of the same callee with as many arguments in their order, and it filters for the same actions,
where a factory stands for the actions that its name stands for. -/
structure FiltersByName (config : Config) (call : FilterCall) : Prop where
  writes : ∀ argument ∈ call.arguments, WritesByName config argument
  reads : ∃ head lists, ReadsAs (call.callee ++ (call.filtered config).types) head ∧
    lists.length = call.arguments.length ∧
    List.Forall₂ ReadsAs (call.arguments.map (Pass.filterArgument config)) lists ∧
    ReadsAs (call.filtered config).text (callLexemes head lists)
  sameActions : ∀ {Action : Type} (actions : String → Action),
    (∀ argument last, IsDottedName argument last → actions argument = actions (factoryName last)) →
      (call.arguments.map (Pass.filterArgument config)).map actions = call.arguments.map actions

section

variable {config : Config} {call : FilterCall}

theorem exists_reads_filtered (readable : call.IsReadable config)
    (cuts : ∀ argument ∈ call.arguments, CutsToName config argument) :
    ∃ head lists, ReadsAs (call.callee ++ (call.filtered config).types) head ∧
      lists.length = call.arguments.length ∧
      List.Forall₂ ReadsAs (call.arguments.map (Pass.filterArgument config)) lists ∧
      ReadsAs (call.filtered config).text (callLexemes head lists) := by
  have balanced : ∀ written ∈ call.arguments.map (Pass.filterArgument config),
      IsBalanced written := by
    rintro written member
    obtain ⟨argument, argumentMember, rfl⟩ := List.mem_map.1 member
    exact (cuts argument argumentMember).isBalanced (readable.arguments argument argumentMember)
  obtain ⟨lists, reads⟩ := exists_lists_of_isBalanced balanced
  obtain ⟨head, readsHead⟩ := readable.head
  have count : lists.length = call.arguments.length := by
    rw [← reads.length_eq, List.length_map]
  exact ⟨head, lists, readsHead, count, reads, readsAs_renderCall readsHead reads⟩

theorem map_actions_filterArgument {Action : Type} {actions : String → Action}
    (writes : ∀ argument ∈ call.arguments, WritesByName config argument)
    (names : ∀ argument last, IsDottedName argument last →
      actions argument = actions (factoryName last)) :
    (call.arguments.map (Pass.filterArgument config)).map actions = call.arguments.map actions := by
  rw [List.map_map]
  refine List.map_congr_left fun argument member => ?_
  rw [Function.comp_apply]
  have written := writes argument member
  cases marker : Pass.isMarker config argument with
  | true => rw [written.marker marker]
  | false =>
    by_cases named : ∃ last, IsDottedName argument last
    · obtain ⟨last, dotted⟩ := named
      rw [written.name last dotted marker, names argument last dotted]
    · rw [written.other fun last dotted => named ⟨last, dotted⟩]

theorem filtersByName_iff (readable : call.IsReadable config) :
    FiltersByName config call ↔ ∀ argument ∈ call.arguments, CutsToName config argument := by
  constructor
  · exact fun filters argument member => writesByName_iff.1 (filters.writes argument member)
  · intro cuts
    have writes : ∀ argument ∈ call.arguments, WritesByName config argument :=
      fun argument member => writesByName_iff.2 (cuts argument member)
    exact ⟨writes, exists_reads_filtered readable cuts,
      fun actions names => map_actions_filterArgument writes names⟩

end

/-! ## The pass -/

/-- The filters of the first annotated property. -/
def filterCallsAt? (config : Config) (path : Path) (project : Project) :
    Option (List FilterCall) :=
  (pipelineAt? config path project).map fun (unit, pipeline) => FilterCall.all config unit pipeline

/-- Each filter is there as it was written, and no others are. -/
def ReadsFiltered (config : Config) (path : Path) (before after : Project) : Prop :=
  filterCallsAt? config path after =
    (filterCallsAt? config path before).map (List.map (FilterCall.filtered config))

/-- What the pass is to do to the first annotated property of a unit. A round writes each filter as
`FilterCall.filtered`, and where each is read as it is written there is no second round. -/
structure RenamesOnlyNames (config : Config) (path : Path) (project : Project) : Prop where
  edits : ∀ unit pipeline, pipelineAt? config path project = some (unit, pipeline) →
    Pass.filterOperator.edits config unit pipeline =
      (pipeline.callsOf unit.text config.pipeline.filterOperator).filterMap fun node =>
        (FilterCall.ofNode? unit node).map fun call => ⟨node.span, (call.filtered config).text⟩
  calls : ∀ calls ∈ filterCallsAt? config path project, ∀ call ∈ calls, FiltersByName config call
  fixpoint : ∀ between, roundBehind? config path .filterOperator project = some between →
    ReadsFiltered config path project between →
      PassDone config path .filterOperator between ∧
        ∃ edits, repeatPass config path .filterOperator roundLimit project = .ok edits between

section

variable {config : Config} {path : Path} {project between result : Project}

/-- A round over calls that are written as the pass writes them has no edits. -/
theorem passDone_of_readsFiltered (reads : ReadsFiltered config path project between) :
    PassDone config path .filterOperator between := by
  refine passDone_iff.2 fun unit pipeline found => ?_
  refine Edit.outermost_eq_nil_iff.2 (List.filter_eq_nil_iff.2 fun edit member => ?_)
  obtain ⟨node, nodeMember, made⟩ := List.mem_filterMap.1 member
  rw [FilterCall.filterEdit?_eq] at made
  obtain ⟨call, read, rfl⟩ := Option.map_eq_some_iff.1 made
  have listed : call ∈ FilterCall.all config unit pipeline :=
    List.mem_filterMap.2 ⟨node, nodeMember, read⟩
  obtain ⟨before, _, same⟩ : ∃ before, filterCallsAt? config path project = some before ∧
      before.map (FilterCall.filtered config) = FilterCall.all config unit pipeline := by
    refine Option.map_eq_some_iff.1 (reads.symm.trans ?_)
    rw [filterCallsAt?, found, Option.map_some]
  rw [← same] at listed
  obtain ⟨old, _, rfl⟩ := List.mem_map.1 listed
  have written : (old.filtered config).text = unit.textOf node := by
    obtain ⟨callee, _, texts⟩ := Option.map_eq_some_iff.1 read
    exact (congrArg FilterCall.text texts).symm
  -- filtering twice comes to filtering once, so the edit would write what is there
  rw [FilterCall.filtered_filtered, written]
  simp [Edit.changes, SourceUnit.textOf, Node.textIn]

theorem Rounds.eq_of_passDone {pass : Pass} {made : Nat}
    (rounds : Rounds config path pass made project result)
    (done : PassDone config path pass project) : made = 0 ∧ result = project := by
  cases rounds with
  | none => exact ⟨rfl, rfl⟩
  | more found first nonempty =>
    exact absurd (passDone_iff.1 done _ _ (pipelineAt?_eq_some_iff.2 ⟨found, first⟩)) nonempty

/-- Where the pass is done behind a round it stops behind that round. -/
theorem exists_repeatPass_of_passDone {pass : Pass}
    (behind : roundBehind? config path pass project = some between)
    (done : PassDone config path pass between) :
    ∃ edits, repeatPass config path pass roundLimit project = .ok edits between := by
  obtain ⟨unit, pipeline, here, _⟩ := exists_of_roundBehind? behind
  obtain ⟨found, _⟩ := pipelineAt?_eq_some_iff.1 here
  obtain ⟨edits, result, ran⟩ :=
    not_fails_iff.1 (not_fails_repeatPass config path pass roundLimit found)
  obtain ⟨made, rounds, ended⟩ := exists_rounds ran
  cases rounds with
  | none =>
    rcases ended with none | ⟨_, doneHere⟩
    · cases none
    · exact absurd doneHere (not_passDone_of_roundBehind? behind)
  | more found first nonempty applied others =>
    have there := roundBehind?_eq_some (pipelineAt?_eq_some_iff.2 ⟨found, first⟩) nonempty applied
    obtain rfl := Option.some.inj (there.symm.trans behind)
    obtain ⟨_, rfl⟩ := others.eq_of_passDone done
    exact ⟨edits, ran⟩

/-- The filter pass renames names and leaves all else of the arguments exactly when each argument is
a marker, a dotted name that is cut before its last segment, or left alone by the cut. -/
theorem renamesOnlyNames_iff
    (readable : ∀ calls ∈ filterCallsAt? config path project, ∀ call ∈ calls,
      call.IsReadable config) :
    RenamesOnlyNames config path project ↔
      ∀ calls ∈ filterCallsAt? config path project, ∀ call ∈ calls,
        ∀ argument ∈ call.arguments, CutsToName config argument := by
  constructor
  · intro renames calls listed call member
    exact (filtersByName_iff (readable calls listed call member)).1
      (renames.calls calls listed call member)
  · intro cuts
    refine ⟨fun unit pipeline _ => ?_, fun calls listed call member => ?_, ?_⟩
    · exact congrArg (fun edit? => List.filterMap edit? _)
        (funext (FilterCall.filterEdit?_eq config unit))
    · exact (filtersByName_iff (readable calls listed call member)).2
        (cuts calls listed call member)
    · intro between behind reads
      have done := passDone_of_readsFiltered reads
      exact ⟨done, exists_repeatPass_of_passDone behind done⟩

end

/-- A filter by a member of an enum and by a class. -/
def filterByNames : Project :=
  ofSources ⟨""⟩ {} [(⟨"u.ts"⟩, "class E\x7b@Effect()x=a.pipe(ofType<T>(X.Load,Save))\x7d")]

theorem filterCallsAt?_filterByNames :
    filterCallsAt? {} ⟨"u.ts"⟩ filterByNames =
      some [⟨"ofType<T>(X.Load,Save)", "ofType", "<T>", ["X.Load", "Save"]⟩] := by
  decide +kernel

/-- One round makes factories of both names, and then the pass is done. -/
theorem renamesOnlyNames_iff_filterByNames :
    RenamesOnlyNames {} ⟨"u.ts"⟩ filterByNames ∧
      ∃ between edits, filterCallsAt? {} ⟨"u.ts"⟩ between =
          some [⟨"ofType(load, save)", "ofType", "", ["load", "save"]⟩] ∧
        repeatPass {} ⟨"u.ts"⟩ .filterOperator roundLimit filterByNames = .ok edits between := by
  have member : ReadsAs "X.Load" [⟨.word, "X"⟩, markLexeme '.', ⟨.word, "Load"⟩] := by
    decide +kernel
  have type : ReadsAs "Save" [⟨.word, "Save"⟩] := by decide +kernel
  have head : ReadsAs ("ofType" ++ "") [⟨.word, "ofType"⟩] := by decide +kernel
  have renames : RenamesOnlyNames {} ⟨"u.ts"⟩ filterByNames := by
    refine (renamesOnlyNames_iff ?_).2 ?_
    · rw [filterCallsAt?_filterByNames]
      rintro calls ⟨⟩ call inCalls
      rw [List.mem_singleton.1 inCalls]
      refine ⟨⟨_, head⟩, ?_⟩
      rw [List.forall_mem_cons, List.forall_mem_singleton]
      exact ⟨⟨_, member⟩, ⟨_, type⟩⟩
    · rw [filterCallsAt?_filterByNames]
      rintro calls ⟨⟩ call inCalls
      rw [List.mem_singleton.1 inCalls, List.forall_mem_cons, List.forall_mem_singleton]
      have load : Text.IsTrimmed "Load".toList := ⟨by rintro c ⟨⟩; decide, by rintro c ⟨⟩; decide⟩
      have save : Text.IsTrimmed "Save".toList := ⟨by rintro c ⟨⟩; decide, by rintro c ⟨⟩; decide⟩
      exact ⟨.name ⟨_, member, .access (.name load), by decide⟩ (by decide +kernel),
        .name ⟨_, type, .name save, by decide⟩ (by decide +kernel)⟩
  have behindRound : (roundBehind? {} ⟨"u.ts"⟩ .filterOperator filterByNames).map
      (filterCallsAt? {} ⟨"u.ts"⟩) =
        some (some [⟨"ofType(load, save)", "ofType", "", ["load", "save"]⟩]) := by
    decide +kernel
  obtain ⟨between, behind, calls⟩ := Option.map_eq_some_iff.1 behindRound
  -- the calls behind the round are those that filtering the old ones makes
  have reads : ReadsFiltered {} ⟨"u.ts"⟩ filterByNames between := by
    rw [ReadsFiltered, calls, filterCallsAt?_filterByNames]
    decide +kernel
  obtain ⟨_, edits, ran⟩ := renames.fixpoint between behind reads
  exact ⟨renames, between, edits, calls, ran⟩

/-- A filter by an element of an enum. -/
def filterByElement : Project :=
  ofSources ⟨""⟩ {} [(⟨"u.ts"⟩, "class E\x7b@Effect()x=ofType(X['Load'])\x7d")]

theorem filterCallsAt?_filterByElement :
    filterCallsAt? {} ⟨"u.ts"⟩ filterByElement =
      some [⟨"ofType(X['Load'])", "ofType", "", ["X['Load']"]⟩] := by
  decide +kernel

/-- The argument of the filter is no name, yet its text is taken for one and put in lower case, so
that it is an element of `x`. -/
theorem not_renamesOnlyNames_filterByElement :
    (∀ calls ∈ filterCallsAt? {} ⟨"u.ts"⟩ filterByElement, ∀ call ∈ calls, call.IsReadable {}) ∧
      ¬ RenamesOnlyNames {} ⟨"u.ts"⟩ filterByElement := by
  have reads : ReadsAs "X['Load']"
      [⟨.word, "X"⟩, ⟨.punctuation, "["⟩, ⟨.string, "'Load'"⟩, ⟨.punctuation, "]"⟩] := by
    decide +kernel
  have head : ReadsAs ("ofType" ++ "") [⟨.word, "ofType"⟩] := by decide +kernel
  rw [filterCallsAt?_filterByElement]
  constructor
  · rintro calls ⟨⟩ call inCalls
    rw [List.mem_singleton.1 inCalls]
    exact ⟨⟨_, head⟩, List.forall_mem_singleton.2 ⟨_, reads⟩⟩
  · intro renames
    have writes := (renames.calls _ filterCallsAt?_filterByElement _
      (List.mem_singleton.2 rfl)).writes "X['Load']" (List.mem_singleton.2 rfl)
    have noName : ∀ last, ¬ IsDottedName "X['Load']" last := by
      rintro last ⟨lexemes, readsName, ends, -⟩
      obtain rfl := readsName.unique reads
      exact absurd (ends.eq_dot _ rfl) (by decide)
    exact absurd (writes.other noName) (by decide)

end CreatorMigration
