import CreatorMigration.Proofs.Migration.Breaks

/-! # Parameters of handlers

A handler takes over the parameters of the reducing function that its clause needs. It has to bind
every name of theirs that the clause uses, in the same place, and it may bind no name that means
something else in the clause.

* `Binder.listText` is how a list of parameters is written; `ParameterUse.render_eq` says that
  handlers are written so.
* `handler_binds_iff` says when a handler binds what it has to.
-/

namespace CreatorMigration

open Project Update

/-! ## Lists of parameters -/

/-- What stands in one place of a list of parameters: a pattern of the reducing function or a name
that the migration has chosen. -/
inductive Binder where
  | pattern (node : Node)
  | chosen (name : String)

namespace Binder

variable (unit : SourceUnit)

def text : Binder → String
  | pattern node => unit.textOf node
  | chosen name => name

def names : Binder → List String
  | pattern node => node.declared.map unit.textOf
  | chosen name => [name]

@[simp] theorem names_chosen (name : String) : (chosen name).names unit = [name] := rfl

/-- Whether the binder may stand in front of an arrow without parentheses. -/
def isPlain : Binder → Bool
  | pattern node => node.kind == .identifier
  | chosen _ => true

def isRest : Binder → Bool
  | pattern node => node.kind == .restPattern
  | chosen _ => false

/-- A lone binder has no parentheses. -/
def listText : List Binder → String
  | [only] => only.text unit
  | binders => "(" ++ Text.join ", " (binders.map (text unit)) ++ ")"

/-- The binders make up a list of parameters, as they are written. -/
structure MakeList (binders : List Binder) : Prop where
  distinct : (binders.flatMap (names unit)).Nodup
  lone : ∀ only, binders = [only] → only.isPlain = true
  restLast : ∀ binder ∈ binders.dropLast, binder.isRest = false

end Binder

namespace ParameterUse

variable (state event : Binder)

def binders : ParameterUse → List Binder
  | stateAndAction => [state, event]
  | stateOnly => [state]
  | actionOnly => [.chosen "_", event]
  | neither => []

theorem render_eq (unit : SourceUnit) (use : ParameterUse) :
    use.render (state.text unit) (event.text unit) =
      Binder.listText unit (use.binders state event) := by
  have two (first second : String) : Text.join ", " [first, second] = first ++ ", " ++ second := by
    simp [Text.join, String.intercalate_cons_cons]
  cases use with
  | stateAndAction => simp [render, binders, Binder.listText, two, String.append_assoc]
  | stateOnly => rfl
  | actionOnly =>
    have opening : "(_, " = "(" ++ ("_" ++ ", ") := rfl
    simp only [render, binders, Binder.listText, List.map_cons, List.map_nil, two, opening,
      String.append_assoc]
    rfl
  | neither => rfl

end ParameterUse

/-! ## Uses -/

namespace SwitchClause

variable {unit : SourceUnit} {signature : ReducerSignature} {statements : List Node}

/-- The state is taken to be used where a `break` gives way to it. -/
theorem usesState_reading_iff {clause : HandledClause} :
    (clause.reading unit signature).usesState = true ↔
      lastBreak? clause.statements ≠ none ∨
        mentions unit signature.state (statementsKept clause.statements) = true := by
  cases before : beforeBreak? clause.statements with
  | none =>
    simp [HandledClause.reading, ofStatements, statementsKept, before,
      lastBreak?_eq_none_iff.2 before]
  | some rest =>
    have ends : lastBreak? clause.statements ≠ none := by
      rw [ne_eq, lastBreak?_eq_none_iff, before]
      exact Option.some_ne_none rest
    exact iff_of_true (usesState_ofStatements_of_lastBreak? _ _ _ _ ends) (.inl ends)

theorem usesAction_reading {clause : HandledClause} :
    (clause.reading unit signature).usesAction =
      mentions unit signature.action (statementsKept clause.statements) := by
  cases before : beforeBreak? clause.statements <;>
    simp [HandledClause.reading, ofStatements, statementsKept, before]

/-- The name is assigned to as a property of the same name somewhere in the statements. -/
def AssignsProperty (unit : SourceUnit) (name : String) (statements : List Node) : Prop :=
  ∃ statement ∈ statements, ∃ node ∈ statement.descendants,
    node.kind = .shorthandPropertyIdentifierPattern ∧ unit.textOf node = name

/-- A name that is used and not mentioned can only be assigned to. -/
theorem mentions_or_assignsProperty {name : String} (free : name ∈ unit.freeNames statements) :
    mentions unit name statements = true ∨ AssignsProperty unit name statements := by
  obtain ⟨statement, member, leaf, inside, isName, named⟩ := SourceUnit.exists_of_mem_freeNames free
  rw [Node.isValueName, Bool.or_eq_true, beq_iff_eq] at isName
  rcases isName with mentioned | property
  · refine .inl (List.any_eq_true.2 ⟨statement, member, List.any_eq_true.2 ⟨leaf, inside, ?_⟩⟩)
    rw [mentioned, named, beq_self_eq_true, Bool.and_true]
  · exact .inr ⟨statement, member, leaf, inside, property, named⟩

end SwitchClause

/-! ## Handlers -/

namespace ReducerReading

open SwitchClause

variable (reading : ReducerReading)

/-- What a handler may take over from some place in the parameters of the function. -/
def binder (place : Nat) (default : String) : Binder :=
  ((reading.parameterPattern? place).map Binder.pattern).getD (.chosen default)

def handlerBinders (read : SwitchClause) : List Binder :=
  read.parameterUse.binders (reading.binder 0 "state") (reading.binder 1 "action")

/-- The parameter of the function in a place binds the name. -/
def BindsAt (place : Nat) (name : String) : Prop :=
  ∃ pattern ∈ reading.parameterPattern? place, ∃ leaf, Node.Declares pattern leaf ∧
    reading.unit.textOf leaf = name

/-- The handler of the clause has to know the name: the name is free in what the handler performs,
or it belongs to the state that the handler answers with. -/
def NeedsName (clause : HandledClause) (name : String) : Prop :=
  name ∈ reading.unit.freeNames (statementsKept clause.statements) ∨
    lastBreak? clause.statements ≠ none ∧ reading.BindsAt 0 name

/-- The handler of the clause needs a name of the parameter of the function in a place. -/
def NeedsParameter (clause : HandledClause) (place : Nat) : Prop :=
  ∃ name, reading.BindsAt place name ∧ reading.NeedsName clause name

/-- The handler takes the parameter of the function in a place over, in the same place of its own
list of parameters. -/
def TakesOver (read : SwitchClause) (place : Nat) : Prop :=
  Binder.MakeList reading.unit (reading.handlerBinders read) ∧
    ∃ pattern ∈ reading.parameterPattern? place,
      (reading.handlerBinders read)[place]? = some (.pattern pattern)

/-- The handler of the clause binds the names of the state and of the event that it needs, and no
others that are free in what it performs. -/
structure BindsWhatIsNeeded (clause : HandledClause) (read : SwitchClause) : Prop where
  bound : ∀ place < 2, ∀ name, reading.BindsAt place name → reading.NeedsName clause name →
    reading.TakesOver read place
  apart : ∀ binder ∈ reading.handlerBinders read, ∀ name ∈ binder.names reading.unit,
    name ∈ reading.unit.freeNames (statementsKept clause.statements) →
      reading.BindsAt 0 name ∨ reading.BindsAt 1 name

variable {reading} {clause : HandledClause} {read : SwitchClause}

theorem signature_eq :
    reading.signature.state = (reading.binder 0 "state").text reading.unit ∧
      reading.signature.action = (reading.binder 1 "action").text reading.unit := by
  have text (found : Option Node) (default : String) :
      (found.map reading.unit.textOf).getD default =
        ((found.map Binder.pattern).getD (.chosen default)).text reading.unit := by
    cases found <;> rfl
  refine ⟨?_, text _ _⟩
  rw [binder, ← text, parameterPattern?, ← List.head?_eq_getElem?]
  rfl

theorem binder_of_pattern {place : Nat} {pattern : Node}
    (found : reading.parameterPattern? place = some pattern) (default : String) :
    reading.binder place default = .pattern pattern := by
  rw [binder, found]
  rfl

theorem parameterPattern?_of_binder {place : Nat} {pattern : Node} {default : String}
    (same : reading.binder place default = .pattern pattern) :
    reading.parameterPattern? place = some pattern := by
  cases found : reading.parameterPattern? place with
  | none => simp [binder, found] at same
  | some other => simpa [binder, found] using same

theorem bindsAt_iff {place : Nat} {pattern : Node}
    (found : reading.parameterPattern? place = some pattern) {name : String} :
    reading.BindsAt place name ↔ name ∈ (Binder.pattern pattern).names reading.unit := by
  simp only [BindsAt, Option.mem_def, found, Option.some_inj, exists_eq_left', Binder.names,
    List.mem_map, Node.mem_declared_iff]

theorem mem_handlerBinders {binder : Binder} (member : binder ∈ reading.handlerBinders read) :
    binder = .chosen "_" ∨ binder = reading.binder 0 "state" ∨
      binder = reading.binder 1 "action" := by
  rw [handlerBinders] at member
  generalize read.parameterUse = use at member
  cases use with
  | stateAndAction => exact .inr (by simpa [ParameterUse.binders] using member)
  | stateOnly => exact .inr (.inl (List.mem_singleton.1 member))
  | actionOnly =>
    rcases List.mem_cons.1 member with placeholder | event
    · exact .inl placeholder
    · exact .inr (.inr (List.mem_singleton.1 event))
  | neither => cases member

/-- The names that a handler takes over are those of the function. -/
theorem bindsAt_of_mem_names {pattern : Node} {name : String}
    (member : .pattern pattern ∈ reading.handlerBinders read)
    (bound : name ∈ (Binder.pattern pattern).names reading.unit) :
    reading.BindsAt 0 name ∨ reading.BindsAt 1 name := by
  rcases mem_handlerBinders member with placeholder | state | event
  · cases placeholder
  · exact .inl ((bindsAt_iff (parameterPattern?_of_binder state.symm)).2 bound)
  · exact .inr ((bindsAt_iff (parameterPattern?_of_binder event.symm)).2 bound)

theorem takesOver_iff {place : Nat} {name : String} (bound : reading.BindsAt place name)
    (inHandler : place < 2) :
    reading.TakesOver read place ↔
      Binder.MakeList reading.unit (reading.handlerBinders read) ∧
        if place = 0 then read.usesState = true else read.usesAction = true := by
  obtain ⟨pattern, found, _⟩ := bound
  rw [Option.mem_def] at found
  refine and_congr_right fun _ => ?_
  have only : (∃ other ∈ reading.parameterPattern? place,
      (reading.handlerBinders read)[place]? = some (.pattern other)) ↔
        (reading.handlerBinders read)[place]? = some (.pattern pattern) := by
    simp only [Option.mem_def, found, Option.some_inj, exists_eq_left']
  -- what stands in the place is decided by the two uses alone
  rw [only, handlerBinders, SwitchClause.parameterUse]
  obtain rfl | rfl : place = 0 ∨ place = 1 := by omega
  · rw [binder_of_pattern found]
    cases read.usesState <;> cases read.usesAction <;>
      simp [ParameterUse.ofUse, ParameterUse.binders]
  · rw [binder_of_pattern found]
    cases read.usesState <;> cases read.usesAction <;>
      simp [ParameterUse.ofUse, ParameterUse.binders]

theorem bindsWhatIsNeeded_iff :
    reading.BindsWhatIsNeeded clause read ↔
      (reading.NeedsParameter clause 0 → read.usesState = true) ∧
        (reading.NeedsParameter clause 1 → read.usesAction = true) ∧
        (reading.NeedsParameter clause 0 ∨ reading.NeedsParameter clause 1 →
          Binder.MakeList reading.unit (reading.handlerBinders read)) ∧
        ∀ name, .chosen name ∈ reading.handlerBinders read →
          name ∈ reading.unit.freeNames (statementsKept clause.statements) →
            reading.BindsAt 0 name ∨ reading.BindsAt 1 name := by
  constructor
  · rintro ⟨bound, apart⟩
    -- a handler takes over a name of a place only if its list is one and it has that place
    have state {name : String} (binds : reading.BindsAt 0 name)
        (needs : reading.NeedsName clause name) :=
      (takesOver_iff binds (by decide)).1 (bound 0 (by decide) name binds needs)
    have event {name : String} (binds : reading.BindsAt 1 name)
        (needs : reading.NeedsName clause name) :=
      (takesOver_iff binds (by decide)).1 (bound 1 (by decide) name binds needs)
    refine ⟨fun ⟨name, binds, needs⟩ => (state binds needs).2,
      fun ⟨name, binds, needs⟩ => (event binds needs).2, ?_, fun name member free => ?_⟩
    · rintro (⟨name, binds, needs⟩ | ⟨name, binds, needs⟩)
      · exact (state binds needs).1
      · exact (event binds needs).1
    · exact apart _ member name (List.mem_singleton_self name) free
  · rintro ⟨state, event, makeList, chosen⟩
    refine ⟨fun place inHandler name binds needs => ?_, fun binder member name bound free => ?_⟩
    · have needed : reading.NeedsParameter clause place := ⟨name, binds, needs⟩
      rw [takesOver_iff binds inHandler]
      obtain rfl | rfl : place = 0 ∨ place = 1 := by omega
      · exact ⟨makeList (.inl needed), state needed⟩
      · exact ⟨makeList (.inr needed), event needed⟩
    · cases binder with
      | pattern pattern => exact bindsAt_of_mem_names member bound
      | chosen own =>
        rw [List.mem_singleton.1 bound] at free ⊢
        exact chosen own member free

/-! ### Parameters that are names -/

variable (reading) in
/-- The function has a state and an event that go by different names. -/
structure NamesParameters : Prop where
  state : ∃ pattern ∈ reading.parameterPattern? 0, pattern.kind = .identifier
  event : ∃ pattern ∈ reading.parameterPattern? 1, pattern.kind = .identifier
  distinct : reading.signature.state ≠ reading.signature.action

theorem declared_of_identifier {pattern : Node} (kind : pattern.kind = .identifier) :
    pattern.declared = [pattern] := by
  rw [Node.declared_eq, if_pos (by simp [Node.isPatternName, kind])]

/-- A binder of a name, and the name that it binds. -/
theorem binder_of_identifier {place : Nat} {pattern : Node}
    (found : reading.parameterPattern? place = some pattern) (kind : pattern.kind = .identifier)
    (default : String) :
    reading.binder place default = .pattern pattern ∧
      (reading.binder place default).names reading.unit =
        [(reading.binder place default).text reading.unit] ∧
      ∀ name, reading.BindsAt place name ↔
        name = (reading.binder place default).text reading.unit := by
  have binder := binder_of_pattern found default
  have names : (Binder.pattern pattern).names reading.unit =
      [(Binder.pattern pattern).text reading.unit] := by
    rw [Binder.names, declared_of_identifier kind]
    rfl
  rw [binder]
  refine ⟨rfl, names, fun name => ?_⟩
  rw [bindsAt_iff found, names, List.mem_singleton]

/-- Only the placeholder can clash with another name. -/
theorem NamesParameters.makeList_iff (named : reading.NamesParameters) :
    Binder.MakeList reading.unit (reading.handlerBinders read) ↔
      (read.parameterUse = .actionOnly → reading.signature.action ≠ "_") := by
  obtain ⟨⟨state, foundState, stateKind⟩, ⟨event, foundEvent, eventKind⟩, distinct⟩ := named
  obtain ⟨isState, stateNames, _⟩ := binder_of_identifier foundState stateKind "state"
  obtain ⟨isEvent, eventNames, _⟩ := binder_of_identifier foundEvent eventKind "action"
  rw [← signature_eq.1] at stateNames
  rw [← signature_eq.2] at eventNames
  have statePlain : (reading.binder 0 "state").isPlain = true := by
    simp [isState, Binder.isPlain, stateKind]
  have stateNoRest : (reading.binder 0 "state").isRest = false := by
    simp [isState, Binder.isRest, stateKind]
  rw [handlerBinders]
  -- one case for each list that is written; just one of them holds the placeholder
  cases use : read.parameterUse with
  | stateAndAction =>
    refine iff_of_true ⟨?_, by simp [ParameterUse.binders], ?_⟩ (by simp)
    · simp [ParameterUse.binders, stateNames, eventNames, distinct]
    · simp [ParameterUse.binders, stateNoRest]
  | stateOnly =>
    refine iff_of_true ⟨?_, ?_, by simp [ParameterUse.binders]⟩ (by simp)
    · simp [ParameterUse.binders, stateNames]
    · simp [ParameterUse.binders, statePlain]
  | actionOnly =>
    constructor
    · rintro ⟨distinct, _, _⟩ _ same
      simp [ParameterUse.binders, eventNames, same] at distinct
    · intro apart
      refine ⟨?_, by simp [ParameterUse.binders], ?_⟩
      · simp [ParameterUse.binders, eventNames, Ne.symm (apart rfl)]
      · simp [ParameterUse.binders, Binder.isRest]
  | neither =>
    exact iff_of_true ⟨by simp [ParameterUse.binders], by simp [ParameterUse.binders],
      by simp [ParameterUse.binders]⟩ (by simp)

theorem NamesParameters.bindsAt_iff (named : reading.NamesParameters) (name : String) :
    (reading.BindsAt 0 name ↔ name = reading.signature.state) ∧
      (reading.BindsAt 1 name ↔ name = reading.signature.action) := by
  obtain ⟨⟨state, foundState, stateKind⟩, ⟨event, foundEvent, eventKind⟩, _⟩ := named
  rw [signature_eq.1, signature_eq.2]
  exact ⟨(binder_of_identifier foundState stateKind _).2.2 name,
    (binder_of_identifier foundEvent eventKind _).2.2 name⟩

/-- The only name that the migration chooses is the placeholder. -/
theorem NamesParameters.chosen_mem_iff (named : reading.NamesParameters) {name : String} :
    .chosen name ∈ reading.handlerBinders read ↔
      read.parameterUse = .actionOnly ∧ name = "_" := by
  obtain ⟨⟨state, foundState, _⟩, ⟨event, foundEvent, _⟩, _⟩ := named
  rw [handlerBinders, binder_of_pattern foundState, binder_of_pattern foundEvent]
  cases read.parameterUse <;> simp [ParameterUse.binders]

/-- Under plain names a handler binds what it needs unless it lacks a parameter that it uses or has
a placeholder in front of something else of that name. -/
theorem NamesParameters.bindsWhatIsNeeded_iff (named : reading.NamesParameters)
    (answers : lastBreak? clause.statements ≠ none → read.usesState = true) :
    reading.BindsWhatIsNeeded clause read ↔
      (reading.signature.state ∈ reading.unit.freeNames (statementsKept clause.statements) →
        read.usesState = true) ∧
      (reading.signature.action ∈ reading.unit.freeNames (statementsKept clause.statements) →
        read.usesAction = true) ∧
      (read.parameterUse = .actionOnly →
        "_" ∉ reading.unit.freeNames (statementsKept clause.statements)) := by
  have needsState : reading.NeedsParameter clause 0 ↔
      reading.signature.state ∈ reading.unit.freeNames (statementsKept clause.statements) ∨
        lastBreak? clause.statements ≠ none := by
    simp only [NeedsParameter, NeedsName, (named.bindsAt_iff _).1, exists_eq_left, and_true]
  have needsEvent : reading.NeedsParameter clause 1 ↔
      reading.signature.action ∈ reading.unit.freeNames (statementsKept clause.statements) := by
    simp only [NeedsParameter, NeedsName, (named.bindsAt_iff _).1, (named.bindsAt_iff _).2,
      exists_eq_left, Ne.symm named.distinct, and_false, or_false]
  have noState (use : read.parameterUse = .actionOnly) : read.usesState ≠ true := by
    revert use
    rw [parameterUse]
    cases read.usesState <;> cases read.usesAction <;> simp [ParameterUse.ofUse]
  rw [ReducerReading.bindsWhatIsNeeded_iff, named.makeList_iff, needsState, needsEvent]
  simp only [named.chosen_mem_iff]
  constructor
  · rintro ⟨state, event, makeList, chosen⟩
    refine ⟨fun free => state (.inl free), event, fun use free => ?_⟩
    -- a free placeholder would be the state, which is not taken over, or a second event
    rcases chosen "_" ⟨use, rfl⟩ free with binds | binds
    · rw [(named.bindsAt_iff _).1.1 binds] at free
      exact noState use (state (.inl free))
    · have same := (named.bindsAt_iff _).2.1 binds
      exact makeList (.inr (same ▸ free)) use same.symm
  · rintro ⟨state, event, apart⟩
    refine ⟨fun needs => needs.elim state answers, event, fun needs use same => ?_, ?_⟩
    · -- the state is not taken over, so it is the event that is needed
      have free := needs.resolve_left fun needs => noState use (needs.elim state answers)
      exact apart use (same ▸ free)
    · rintro name ⟨use, rfl⟩ free
      exact absurd free (apart use)

end ReducerReading

/-- A handler takes a parameter over if its text stands in the statements as a name, and the state
also behind a `break`. So it binds what it needs exactly where that finds all parameters needed,
where these make up a list, and where no name that the migration chooses means something else. Under
plain names it is the placeholder that may clash and an assignment that may be overlooked. -/
theorem handler_binds_iff {reading : ReducerReading} {clause : HandledClause}
    (member : clause ∈ HandledClause.ofSwitch reading.unit reading.switch) :
    ∃ read ∈ reading.clauses,
      read.labels = WrittenClause.waitingLabels clause.before ++ [clause.label] ∧
      read.parameterUse.render reading.signature.state reading.signature.action =
        Binder.listText reading.unit (reading.handlerBinders read) ∧
      (read.usesState = true ↔ SwitchClause.lastBreak? clause.statements ≠ none ∨
        SwitchClause.mentions reading.unit reading.signature.state
          (SwitchClause.statementsKept clause.statements) = true) ∧
      read.usesAction = SwitchClause.mentions reading.unit reading.signature.action
        (SwitchClause.statementsKept clause.statements) ∧
      (reading.BindsWhatIsNeeded clause read ↔
        (reading.NeedsParameter clause 0 → read.usesState = true) ∧
        (reading.NeedsParameter clause 1 → read.usesAction = true) ∧
        (reading.NeedsParameter clause 0 ∨ reading.NeedsParameter clause 1 →
          Binder.MakeList reading.unit (reading.handlerBinders read)) ∧
        ∀ name, .chosen name ∈ reading.handlerBinders read →
          name ∈ reading.unit.freeNames (SwitchClause.statementsKept clause.statements) →
            reading.BindsAt 0 name ∨ reading.BindsAt 1 name) ∧
      (reading.NamesParameters →
        ¬ SwitchClause.AssignsProperty reading.unit reading.signature.state
          (SwitchClause.statementsKept clause.statements) →
        ¬ SwitchClause.AssignsProperty reading.unit reading.signature.action
          (SwitchClause.statementsKept clause.statements) →
        (reading.BindsWhatIsNeeded clause read ↔
          (read.parameterUse = .actionOnly →
            "_" ∉ reading.unit.freeNames (SwitchClause.statementsKept clause.statements)))) := by
  refine ⟨clause.reading reading.unit reading.signature,
    HandledClause.reading_mem_ofSwitch member _, SwitchClause.labels_ofStatements _ _ _ _ _, ?_,
    SwitchClause.usesState_reading_iff, SwitchClause.usesAction_reading,
    ReducerReading.bindsWhatIsNeeded_iff, fun named noState noEvent => ?_⟩
  · rw [ReducerReading.signature_eq.1, ReducerReading.signature_eq.2]
    exact ParameterUse.render_eq _ _ _ _
  · rw [named.bindsWhatIsNeeded_iff fun ends => SwitchClause.usesState_reading_iff.2 (.inl ends),
      SwitchClause.usesState_reading_iff, SwitchClause.usesAction_reading]
    refine ⟨fun holds => holds.2.2, fun apart => ⟨fun free => .inr ?_, fun free => ?_, apart⟩⟩
    · exact (SwitchClause.mentions_or_assignsProperty free).resolve_right noState
    · exact (SwitchClause.mentions_or_assignsProperty free).resolve_right noEvent

/-- The state and the event are names, and the clause uses the event only. -/
def plainNames : Project :=
  ofSources ⟨""⟩ {}
    [(⟨"a.ts"⟩, "function xReducer(s,a)\x7bswitch(a)\x7bcase A:return a\x7d\x7d")]

theorem exists_clause_plainNames :
    ∃ reading : ReducerReading, reading.IsOf {} ⟨"a.ts"⟩ plainNames ∧ reading.NamesParameters ∧
      reading.signature.action = "a" ∧
      ∃ clause ∈ HandledClause.ofSwitch reading.unit reading.switch,
        reading.unit.freeNames (SwitchClause.statementsKept clause.statements) = ["a"] ∧
        ∀ name, ¬ SwitchClause.AssignsProperty reading.unit name
          (SwitchClause.statementsKept clause.statements) := by
  have found : ∃ unit ∈ plainNames.unit? ⟨"a.ts"⟩,
      ∃ declaration ∈ reducingFunction? ({} : Config).naming unit,
      ∃ switch ∈ switchOf? declaration.node, ∃ clause ∈ HandledClause.ofSwitch unit switch,
        (ReducerReading.parameterPattern? ⟨unit, declaration, switch⟩ 0).map
          (fun pattern => (pattern.kind, unit.textOf pattern)) = some (.identifier, "s") ∧
        (ReducerReading.parameterPattern? ⟨unit, declaration, switch⟩ 1).map
          (fun pattern => (pattern.kind, unit.textOf pattern)) = some (.identifier, "a") ∧
        unit.freeNames (SwitchClause.statementsKept clause.statements) = ["a"] ∧
        ((SwitchClause.statementsKept clause.statements).flatMap Node.descendants).any
          (·.kind == .shorthandPropertyIdentifierPattern) = false := by
    decide +kernel
  obtain ⟨unit, found, declaration, function, switch, first, clause, member, stateAt, eventAt, free,
    noProperties⟩ := found
  obtain ⟨state, foundState, stateReads⟩ := Option.map_eq_some_iff.1 stateAt
  obtain ⟨event, foundEvent, eventReads⟩ := Option.map_eq_some_iff.1 eventAt
  obtain ⟨stateKind, stateText⟩ := Prod.mk.inj stateReads
  obtain ⟨eventKind, eventText⟩ := Prod.mk.inj eventReads
  obtain ⟨stateNamed, eventNamed⟩ := @ReducerReading.signature_eq ⟨unit, declaration, switch⟩
  rw [ReducerReading.binder_of_pattern foundState, Binder.text, stateText] at stateNamed
  rw [ReducerReading.binder_of_pattern foundEvent, Binder.text, eventText] at eventNamed
  -- the signature spells the two patterns, whose texts are known
  have distinct : (ReducerReading.signature ⟨unit, declaration, switch⟩).state ≠
      (ReducerReading.signature ⟨unit, declaration, switch⟩).action := by
    rw [stateNamed, eventNamed]
    decide
  refine ⟨⟨unit, declaration, switch⟩, ⟨found, function, first⟩,
    ⟨⟨state, foundState, stateKind⟩, ⟨event, foundEvent, eventKind⟩, distinct⟩, eventNamed, clause,
    member, free, ?_⟩
  rintro name ⟨statement, inKept, node, inside, property, _⟩
  have noProperty := List.any_eq_false.1 noProperties node (List.mem_flatMap_of_mem inKept inside)
  exact noProperty (beq_iff_eq.2 property)

theorem handler_binds_iff_plainNames :
    ∃ reading : ReducerReading, reading.IsOf {} ⟨"a.ts"⟩ plainNames ∧ reading.NamesParameters ∧
      ∃ clause ∈ HandledClause.ofSwitch reading.unit reading.switch, ∃ read ∈ reading.clauses,
        reading.NeedsParameter clause 1 ∧ reading.BindsWhatIsNeeded clause read := by
  obtain ⟨reading, isOf, named, event, clause, member, free, noneAssigned⟩ :=
    exists_clause_plainNames
  obtain ⟨read, readMember, _, _, _, _, _, plain⟩ := handler_binds_iff member
  refine ⟨reading, isOf, named, clause, member, read, readMember,
    ⟨"a", (named.bindsAt_iff "a").2.2 event.symm, .inl ?_⟩,
    (plain named (noneAssigned _) (noneAssigned _)).2 fun _ => ?_⟩
  · rw [free]
    decide
  · rw [free]
    decide

/-- The first clause needs a part of the state, and the second one something called `_`. -/
def partOfState : Project :=
  ofSources ⟨""⟩ {}
    [(⟨"a.ts"⟩,
      "function xReducer(\x7bi\x7d,a)\x7bswitch(a)\x7bcase A:return i;case B:return _(a)\x7d\x7d")]

theorem exists_clauses_partOfState :
    ∃ reading : ReducerReading, reading.IsOf {} ⟨"a.ts"⟩ partOfState ∧
      (∀ name, reading.BindsAt 0 name ↔ name = "i") ∧
      (∀ name, reading.BindsAt 1 name ↔ name = "a") ∧
      (∃ clause ∈ HandledClause.ofSwitch reading.unit reading.switch,
        reading.unit.freeNames (SwitchClause.statementsKept clause.statements) = ["i"] ∧
        (clause.reading reading.unit reading.signature).parameterUse = .neither) ∧
      ∃ clause ∈ HandledClause.ofSwitch reading.unit reading.switch,
        reading.unit.freeNames (SwitchClause.statementsKept clause.statements) = ["_", "a"] ∧
        (clause.reading reading.unit reading.signature).parameterUse = .actionOnly := by
  have found : ∃ unit ∈ partOfState.unit? ⟨"a.ts"⟩,
      ∃ declaration ∈ reducingFunction? ({} : Config).naming unit,
      ∃ switch ∈ switchOf? declaration.node,
      ∃ state ∈ ReducerReading.parameterPattern? ⟨unit, declaration, switch⟩ 0,
      ∃ event ∈ ReducerReading.parameterPattern? ⟨unit, declaration, switch⟩ 1,
        [(Binder.pattern state).names unit, (Binder.pattern event).names unit] = [["i"], ["a"]] ∧
        ((HandledClause.ofSwitch unit switch).map fun clause =>
          (unit.freeNames (SwitchClause.statementsKept clause.statements),
            (clause.reading unit
              (ReducerSignature.ofFunction unit declaration.node)).parameterUse)) =
          [(["i"], .neither), (["_", "a"], .actionOnly)] := by
    decide +kernel
  obtain ⟨unit, found, declaration, function, switch, first, state, foundState, event, foundEvent,
    names, handlers⟩ := found
  obtain ⟨stateNames, eventNames⟩ := List.cons.inj names
  -- the table of handlers is evaluated once, and both clauses are looked up in it
  have reads (free : List String) (use : ParameterUse)
      (listed : (free, use) ∈ [(["i"], .neither), (["_", "a"], .actionOnly)]) :
      ∃ clause ∈ HandledClause.ofSwitch unit switch,
        unit.freeNames (SwitchClause.statementsKept clause.statements) = free ∧
        (clause.reading unit (ReducerSignature.ofFunction unit declaration.node)).parameterUse =
          use := by
    rw [← handlers] at listed
    obtain ⟨clause, member, same⟩ := List.mem_map.1 listed
    exact ⟨clause, member, congrArg Prod.fst same, congrArg Prod.snd same⟩
  refine ⟨⟨unit, declaration, switch⟩, ⟨found, function, first⟩, fun name => ?_, fun name => ?_,
    reads _ _ (by decide), reads _ _ (by decide)⟩
  · rw [ReducerReading.bindsAt_iff foundState, stateNames, List.mem_singleton]
  · rw [ReducerReading.bindsAt_iff foundEvent, (List.cons.inj eventNames).1, List.mem_singleton]

/-- The first handler has no parameters although it needs the state, and the placeholder in the
second one hides what the clause calls. -/
theorem not_bindsWhatIsNeeded_partOfState :
    ∃ reading : ReducerReading, reading.IsOf {} ⟨"a.ts"⟩ partOfState ∧
      (∃ clause ∈ HandledClause.ofSwitch reading.unit reading.switch, ∃ read ∈ reading.clauses,
        "i" ∈ reading.unit.freeNames (SwitchClause.statementsKept clause.statements) ∧
        reading.BindsAt 0 "i" ∧ read.parameterUse = .neither ∧
        ¬ reading.BindsWhatIsNeeded clause read) ∧
      ∃ clause ∈ HandledClause.ofSwitch reading.unit reading.switch, ∃ read ∈ reading.clauses,
        "_" ∈ reading.unit.freeNames (SwitchClause.statementsKept clause.statements) ∧
        read.parameterUse = .actionOnly ∧ ¬ reading.BindsWhatIsNeeded clause read := by
  obtain ⟨reading, isOf, bindsState, bindsEvent, ⟨clause, member, free, use⟩, other, otherMember,
    otherFree, otherUse⟩ := exists_clauses_partOfState
  have needed : "i" ∈ reading.unit.freeNames (SwitchClause.statementsKept clause.statements) := by
    rw [free]
    decide
  have hidden : "_" ∈ reading.unit.freeNames (SwitchClause.statementsKept other.statements) := by
    rw [otherFree]
    decide
  refine ⟨reading, isOf, ⟨clause, member, _, HandledClause.reading_mem_ofSwitch member _, needed,
    (bindsState "i").2 rfl, use, fun binds => ?_⟩, other, otherMember, _,
    HandledClause.reading_mem_ofSwitch otherMember _, hidden, otherUse, fun binds => ?_⟩
  · obtain ⟨_, pattern, _, taken⟩ := binds.bound 0 (by decide) "i" ((bindsState "i").2 rfl)
      (.inl needed)
    rw [ReducerReading.handlerBinders, use] at taken
    cases taken
  · have placeholder : .chosen "_" ∈ reading.handlerBinders
        (other.reading reading.unit reading.signature) := by
      rw [ReducerReading.handlerBinders, otherUse]
      exact List.mem_cons_self
    have apart := binds.apart _ placeholder "_" (List.mem_singleton_self _) hidden
    rw [bindsState, bindsEvent] at apart
    revert apart
    decide

end CreatorMigration
