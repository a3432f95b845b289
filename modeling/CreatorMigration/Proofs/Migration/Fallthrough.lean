import CreatorMigration.Proofs.Migration.Rewriting
import Mathlib.Data.List.DropRight

/-! # Control that falls through a switch

A switch runs its clauses from the one that it is entered at to the first one that leaves it. The
migration reads a handler for each case clause with statements; `SwitchClause.ofSwitch_eq` says
which labels it is registered under and which statements it is rendered from.

* `labels_kept_iff` says when these are the labels that lead to the clause.
* `fallthrough_kept_iff` says when the statements of the clauses that control falls into are among
  those.
-/

namespace CreatorMigration

open Project Update

/-! ## Leaving a switch -/

namespace Node

mutual

/-- Whether control leaves the switch at the end of a statement, be it in a block. -/
def leaves : Node → Bool
  | ⟨kind, _, _, children⟩ =>
      match kind with
      | .returnStatement | .throwStatement | .breakStatement | .continueStatement => true
      | .statementBlock => lastLeaves false children
      | _ => false

/-- Whether the last of some statements leaves; comments are no statements. -/
def lastLeaves (found : Bool) : List Node → Bool
  | [] => found
  | child :: rest =>
      lastLeaves (if child.isNamed && !child.isComment then leaves child else found) rest

end

end Node

/-! ## Clauses as they are written -/

structure WrittenClause where
  /-- The label of a case clause; a default clause has none. -/
  label : Option String
  statements : List Node

namespace WrittenClause

def ofNode? (unit : SourceUnit) (node : Node) : Option WrittenClause :=
  if node.kind = .switchDefault then some ⟨none, node.namedParts⟩
  else (SwitchClause.caseParts? unit node).map fun (label, statements) => ⟨some label, statements⟩

def ofSwitch (unit : SourceUnit) (switch : Node) : List WrittenClause :=
  (((switch.child? .body).map Node.namedParts).getD []).filterMap (ofNode? unit)

def leaves (clause : WrittenClause) : Bool := Node.lastLeaves false clause.statements

/-- Whether the clause is a case clause with statements, which gets a handler. -/
def isHandled (clause : WrittenClause) : Bool := clause.label.isSome && !clause.statements.isEmpty

/-- The clauses that run when a switch is entered at the first of some clauses. -/
def entered : List WrittenClause → List WrittenClause
  | [] => []
  | clause :: rest => if clause.leaves then [clause] else clause :: entered rest

/-- The statements that run when a switch is entered at the first of some clauses. -/
def statementsRun (clauses : List WrittenClause) : List Node :=
  (entered clauses).flatMap statements

/-- Whether control that enters at the first of some clauses comes to what is behind them. -/
def comesThrough (clauses behind : List WrittenClause) : Bool :=
  decide (clauses.length < (entered (clauses ++ behind)).length)

/-- The labels of the clauses from which control comes to what is behind all of them. -/
def labelsInto (clauses behind : List WrittenClause) : List String :=
  clauses.tails.filterMap fun suffix =>
    if comesThrough suffix behind then suffix.head?.bind label else none

/-- The labels of the case clauses behind the last one with statements. -/
def waitingLabels (clauses : List WrittenClause) : List String :=
  (clauses.rtakeWhile fun clause => !clause.isHandled).filterMap label

end WrittenClause

namespace WrittenClause

/-! ## The run of a switch -/

theorem length_entered_append_le {clauses : List WrittenClause} (behind : List WrittenClause)
    (leaving : ∃ clause ∈ clauses, clause.leaves = true) :
    (entered (clauses ++ behind)).length ≤ clauses.length := by
  induction clauses with
  | nil => simp at leaving
  | cons first rest inductionHypothesis =>
    rw [List.cons_append, entered]
    by_cases leaves : first.leaves = true
    · simp [leaves]
    · rw [if_neg leaves, List.length_cons, List.length_cons]
      refine Nat.succ_le_succ (inductionHypothesis ?_)
      simpa [leaves] using leaving

theorem entered_append {clauses : List WrittenClause} (behind : List WrittenClause)
    (staying : ∀ clause ∈ clauses, clause.leaves = false) :
    entered (clauses ++ behind) = clauses ++ entered behind := by
  induction clauses with
  | nil => rfl
  | cons first rest inductionHypothesis =>
    have stays : first.leaves = false := staying first List.mem_cons_self
    rw [List.cons_append, entered, stays, if_neg Bool.false_ne_true, List.cons_append,
      inductionHypothesis fun clause member => staying clause (List.mem_cons_of_mem _ member)]

theorem entered_ne_nil {clauses : List WrittenClause} (nonempty : clauses ≠ []) :
    entered clauses ≠ [] := by
  cases clauses with
  | nil => exact absurd rfl nonempty
  | cons first rest =>
    rw [entered]
    split <;> simp

/-- Control comes through clauses none of which leaves the switch. -/
theorem comesThrough_iff {clauses behind : List WrittenClause} (nonempty : behind ≠ []) :
    comesThrough clauses behind = true ↔ ∀ clause ∈ clauses, clause.leaves = false := by
  rw [comesThrough, decide_eq_true_iff]
  constructor
  · intro long clause member
    by_contra leaves
    exact absurd (length_entered_append_le behind ⟨clause, member, by simpa using leaves⟩)
      (Nat.not_le.2 long)
  · intro staying
    rw [entered_append behind staying, List.length_append]
    have := List.length_pos_iff.2 (entered_ne_nil nonempty)
    omega

theorem comesThrough_concat (clauses : List WrittenClause) (last : WrittenClause)
    {behind : List WrittenClause} (nonempty : behind ≠ []) :
    comesThrough (clauses ++ [last]) behind =
      (comesThrough clauses (last :: behind) && !last.leaves) := by
  rw [Bool.eq_iff_iff, comesThrough_iff nonempty, Bool.and_eq_true,
    comesThrough_iff (List.cons_ne_nil _ _), List.forall_mem_append, List.forall_mem_singleton,
    Bool.not_eq_true']

/-! ## Labels that lead to a clause -/

theorem labelsInto_cons (first : WrittenClause) (rest behind : List WrittenClause) :
    labelsInto (first :: rest) behind =
      (if comesThrough (first :: rest) behind then first.label else none).toList ++
        labelsInto rest behind := by
  rw [labelsInto, List.tails, List.filterMap_cons, labelsInto]
  cases comesThrough (first :: rest) behind with
  | false => simp
  | true => cases labelled : first.label <;> simp [labelled]

theorem labelsInto_concat (clauses : List WrittenClause) (last : WrittenClause)
    {behind : List WrittenClause} (nonempty : behind ≠ []) :
    labelsInto (clauses ++ [last]) behind =
      if last.leaves then [] else labelsInto clauses (last :: behind) ++ last.label.toList := by
  induction clauses with
  | nil =>
    have reached := comesThrough_concat [] last nonempty
    rw [(comesThrough_iff (List.cons_ne_nil _ _)).2 (by simp), List.nil_append] at reached
    rw [List.nil_append, labelsInto_cons, reached]
    cases last.leaves <;> simp [labelsInto]
  | cons first rest inductionHypothesis =>
    rw [List.cons_append, labelsInto_cons, ← List.cons_append,
      comesThrough_concat _ last nonempty, inductionHypothesis, labelsInto_cons]
    cases last.leaves <;> simp

theorem waitingLabels_concat (clauses : List WrittenClause) (last : WrittenClause) :
    waitingLabels (clauses ++ [last]) =
      if last.isHandled then [] else waitingLabels clauses ++ last.label.toList := by
  rw [waitingLabels, List.rtakeWhile_concat, waitingLabels]
  cases last.isHandled with
  | true => rfl
  | false => cases labelled : last.label <;> simp [labelled]

end WrittenClause

/-! ## Clauses that are handled -/

/-- A case clause with statements, between the other clauses of its switch. -/
structure HandledClause where
  before : List WrittenClause
  label : String
  statements : List Node
  after : List WrittenClause

namespace HandledClause

open WrittenClause

def written (clause : HandledClause) : WrittenClause := ⟨some clause.label, clause.statements⟩

def ofClause? (before : List WrittenClause) (clause : WrittenClause) (after : List WrittenClause) :
    Option HandledClause :=
  match clause.label, clause.statements with
  | some label, first :: more => some ⟨before, label, first :: more, after⟩
  | _, _ => none

/-- The handled ones of some clauses that stand behind those `before`. -/
def listed (before : List WrittenClause) : List WrittenClause → List HandledClause
  | [] => []
  | clause :: rest => (ofClause? before clause rest).toList ++ listed (before ++ [clause]) rest

/-- The handled clauses of a switch, in their order. -/
def ofSwitch (unit : SourceUnit) (switch : Node) : List HandledClause :=
  listed [] (WrittenClause.ofSwitch unit switch)

/-- What the migration reads of the clause. -/
def reading (unit : SourceUnit) (signature : ReducerSignature) (clause : HandledClause) :
    SwitchClause :=
  SwitchClause.ofStatements unit signature clause.label (waitingLabels clause.before)
    clause.statements

/-- The labels at which the switch is entered to run the statements of the clause. -/
def labelsRunning (clause : HandledClause) : List String :=
  labelsInto clause.before (clause.written :: clause.after) ++ [clause.label]

/-- The statements that run when the switch is entered at the label of the clause. -/
def statementsRunning (clause : HandledClause) : List Node :=
  statementsRun (clause.written :: clause.after)

/-! ## The handled clauses of a switch -/

theorem ofClause?_eq_some_iff {before after : List WrittenClause} {written : WrittenClause}
    {clause : HandledClause} :
    ofClause? before written after = some clause ↔
      clause.statements ≠ [] ∧ written = clause.written ∧ before = clause.before ∧
        after = clause.after := by
  obtain ⟨label, statements⟩ := written
  obtain ⟨otherBefore, otherLabel, otherStatements, otherAfter⟩ := clause
  -- a default clause has no label and a clause that falls through has no statements
  cases label with
  | none => simp [ofClause?, HandledClause.written]
  | some label =>
    cases statements with
    | nil =>
      simp only [ofClause?, reduceCtorEq, false_iff, HandledClause.written, not_and]
      rintro nonempty same
      cases same
      exact absurd rfl nonempty
    | cons first more =>
      simp only [ofClause?, HandledClause.written, Option.some.injEq, HandledClause.mk.injEq,
        WrittenClause.mk.injEq]
      constructor
      · rintro ⟨rfl, rfl, rfl, rfl⟩
        simp
      · rintro ⟨_, ⟨rfl, rfl⟩, rfl, rfl⟩
        simp

theorem mem_listed_iff {before clauses : List WrittenClause} {clause : HandledClause} :
    clause ∈ listed before clauses ↔ clause.statements ≠ [] ∧
      ∃ front, clauses = front ++ clause.written :: clause.after ∧
        before ++ front = clause.before := by
  induction clauses generalizing before with
  | nil => simp [listed]
  | cons first rest inductionHypothesis =>
    rw [listed, List.mem_append, Option.mem_toList, ofClause?_eq_some_iff,
      inductionHypothesis]
    constructor
    · rintro (⟨nonempty, rfl, rfl, rfl⟩ | ⟨nonempty, front, rfl, placed⟩)
      · exact ⟨nonempty, [], rfl, List.append_nil _⟩
      · exact ⟨nonempty, first :: front, rfl, by rw [← placed, List.append_assoc]; rfl⟩
    · rintro ⟨nonempty, front, split, placed⟩
      cases front with
      | nil =>
        obtain ⟨rfl, rfl⟩ := List.cons.inj split
        exact .inl ⟨nonempty, rfl, by rw [← placed, List.append_nil], rfl⟩
      | cons other front =>
        obtain ⟨rfl, rfl⟩ := List.cons.inj split
        exact .inr ⟨nonempty, front, rfl, by rw [← placed, List.append_assoc]; rfl⟩

/-- A handled clause stands in the switch with its statements, between the others. -/
theorem mem_ofSwitch_iff {unit : SourceUnit} {switch : Node} {clause : HandledClause} :
    clause ∈ ofSwitch unit switch ↔ clause.statements ≠ [] ∧
      WrittenClause.ofSwitch unit switch = clause.before ++ clause.written :: clause.after := by
  rw [ofSwitch, mem_listed_iff]
  simp

end HandledClause

/-! ## What is read -/

/-- The label and the statements of a case clause. -/
def WrittenClause.case? (clause : WrittenClause) : Option (String × List Node) :=
  clause.label.map fun label => (label, clause.statements)

theorem SwitchClause.caseParts?_eq (unit : SourceUnit) (node : Node) :
    caseParts? unit node = (WrittenClause.ofNode? unit node).bind WrittenClause.case? := by
  rw [WrittenClause.ofNode?]
  split
  · next isDefault =>
    rw [caseParts?, isDefault]
    rfl
  · cases read : caseParts? unit node <;> simp [WrittenClause.case?]

theorem SwitchClause.readCases_eq (unit : SourceUnit) (signature : ReducerSignature)
    (before clauses : List WrittenClause) :
    readCases unit signature (WrittenClause.waitingLabels before)
        (clauses.filterMap WrittenClause.case?) =
      (HandledClause.listed before clauses).map (HandledClause.reading unit signature) := by
  induction clauses generalizing before with
  | nil => rfl
  | cons first rest inductionHypothesis =>
    have reads := inductionHypothesis (before ++ [first])
    rw [WrittenClause.waitingLabels_concat] at reads
    obtain ⟨label, statements⟩ := first
    cases label with
    | none => simpa [WrittenClause.case?, WrittenClause.isHandled, HandledClause.listed,
        HandledClause.ofClause?, List.filterMap_cons] using reads
    | some label =>
      cases statements with
      | nil => simpa [WrittenClause.case?, WrittenClause.isHandled, HandledClause.listed,
          HandledClause.ofClause?, readCases] using reads
      | cons statement more => simpa [WrittenClause.case?, WrittenClause.isHandled,
          HandledClause.listed, HandledClause.ofClause?, readCases,
          HandledClause.reading] using reads

/-- The clauses that are handled are read one after the other, each with its own statements and with
the labels that wait for it. -/
theorem SwitchClause.ofSwitch_eq (unit : SourceUnit) (signature : ReducerSignature)
    (switch : Node) :
    SwitchClause.ofSwitch unit signature switch =
      (HandledClause.ofSwitch unit switch).map (HandledClause.reading unit signature) := by
  rw [ofSwitch, HandledClause.ofSwitch, ← readCases_eq, WrittenClause.ofSwitch]
  cases switch.child? .body with
  | none => rfl
  | some body =>
    rw [Option.map_some, Option.getD_some, List.filterMap_filterMap]
    refine congrArg (readCases unit signature []) (List.filterMap_congr fun node _ => ?_)
    exact caseParts?_eq unit node

theorem HandledClause.reading_mem_ofSwitch {unit : SourceUnit} {switch : Node}
    {clause : HandledClause} (member : clause ∈ ofSwitch unit switch)
    (signature : ReducerSignature) :
    clause.reading unit signature ∈ SwitchClause.ofSwitch unit signature switch := by
  rw [SwitchClause.ofSwitch_eq]
  exact List.mem_map_of_mem member

theorem SwitchClause.labels_ofStatements (unit : SourceUnit) (signature : ReducerSignature)
    (label : String) (preceding : List String) (statements : List Node) :
    (ofStatements unit signature label preceding statements).labels = preceding ++ [label] := by
  rw [ofStatements]
  split <;> rfl

/-! ## Labels -/

namespace WrittenClause

/-- No label leads into a default clause with statements, unless a handled clause stands behind
it. -/
def DefaultsAreClear (clauses behind : List WrittenClause) : Prop :=
  ∀ front default back, clauses = front ++ default :: back → default.label = none →
    default.statements ≠ [] → (∀ other ∈ back, other.isHandled = false) →
      labelsInto front (default :: (back ++ behind)) = []

theorem defaultsAreClear_concat_iff (clauses : List WrittenClause) (last : WrittenClause)
    (behind : List WrittenClause) :
    DefaultsAreClear (clauses ++ [last]) behind ↔
      (last.label = none → last.statements ≠ [] → labelsInto clauses (last :: behind) = []) ∧
        (last.isHandled = false → DefaultsAreClear clauses (last :: behind)) := by
  constructor
  · intro clear
    refine ⟨fun unlabeled nonempty => clear clauses last [] rfl unlabeled nonempty (by simp), ?_⟩
    rintro unhandled front default back rfl unlabeled nonempty skipped
    simpa using clear front default (back ++ [last]) (by simp) unlabeled nonempty (by
      simpa [or_imp, forall_and, unhandled] using skipped)
  · rintro ⟨own, others⟩ front default back split unlabeled nonempty skipped
    rcases List.eq_nil_or_concat back with rfl | ⟨rest, final, rfl⟩
    · obtain ⟨rfl, same⟩ := List.append_inj' split rfl
      cases same
      exact own unlabeled nonempty
    · rw [List.concat_eq_append, ← List.cons_append, ← List.append_assoc] at split
      obtain ⟨rfl, same⟩ := List.append_inj' split rfl
      cases same
      rw [List.concat_eq_append, List.append_assoc]
      refine others (skipped last (by simp)) front default rest rfl unlabeled nonempty ?_
      exact fun other member => skipped other (by simp [member])

theorem leaves_of_nil {clause : WrittenClause} (empty : clause.statements = []) :
    clause.leaves = false := by
  rw [leaves, empty, Node.lastLeaves]

section

variable {clauses : List WrittenClause}
  (exits : ∀ clause ∈ clauses, clause.statements ≠ [] → clause.leaves = true)

include exits

theorem labelsInto_eq_nil {behind : List WrittenClause} (nonempty : behind ≠ [])
    (idle : waitingLabels clauses = []) : labelsInto clauses behind = [] := by
  induction clauses using List.reverseRecOn generalizing behind with
  | nil => simp [labelsInto]
  | append_singleton front last inductionHypothesis =>
    rw [labelsInto_concat front last nonempty]
    by_cases empty : last.statements = []
    · have unhandled : last.isHandled = false := by simp [isHandled, empty]
      rw [waitingLabels_concat, unhandled, if_neg Bool.false_ne_true,
        List.append_eq_nil_iff] at idle
      rw [inductionHypothesis (fun clause member => exits clause (List.mem_append_left _ member))
        (List.cons_ne_nil _ _) idle.1, idle.2]
      simp
    · rw [exits last (by simp) empty, if_pos rfl]

/-- In a switch where every clause with statements leaves, the labels that wait are those that lead
on, unless some of them lead into a default clause. -/
theorem waitingLabels_eq_iff {behind : List WrittenClause} (nonempty : behind ≠ []) :
    waitingLabels clauses = labelsInto clauses behind ↔ DefaultsAreClear clauses behind := by
  induction clauses using List.reverseRecOn generalizing behind with
  | nil => simp [waitingLabels, labelsInto, DefaultsAreClear]
  | append_singleton front last inductionHypothesis =>
    have frontExits : ∀ clause ∈ front, clause.statements ≠ [] → clause.leaves = true :=
      fun clause member => exits clause (List.mem_append_left _ member)
    have frontIff := inductionHypothesis frontExits (List.cons_ne_nil last behind)
    rw [waitingLabels_concat, labelsInto_concat front last nonempty, defaultsAreClear_concat_iff]
    by_cases empty : last.statements = []
    -- an empty clause passes on what waits in front of it, with its own label
    · simp only [isHandled, empty, leaves_of_nil empty, List.isEmpty_nil, Bool.not_true,
        Bool.and_false, Bool.false_eq_true, if_false, ne_eq, not_true_eq_false, false_implies,
        implies_true, true_implies, true_and]
      rw [← frontIff, List.append_left_inj]
    · rw [exits last (by simp) empty, if_pos rfl]
      cases labelled : last.label with
      | some label => simp [isHandled, labelled, empty]
      -- behind a default clause nothing should wait, so nothing may wait in front of it
      | none =>
        simp only [isHandled, labelled, Option.isSome_none, Bool.false_and, Bool.false_eq_true,
          if_false, Option.toList_none, List.append_nil, ne_eq, empty, not_false_eq_true,
          true_implies]
        rw [← frontIff]
        constructor
        · intro idle
          have leadsNowhere := labelsInto_eq_nil frontExits (List.cons_ne_nil last behind) idle
          exact ⟨leadsNowhere, idle.trans leadsNowhere.symm⟩
        · rintro ⟨leadsNowhere, same⟩
          exact same.trans leadsNowhere

end

end WrittenClause

/-- The migration attaches to each clause that it handles the labels that wait for it. In a switch
where every clause with statements leaves, these are the labels at which the switch is entered to
run the clause exactly when no label leads into a default clause with statements that stands between
the clause and the handled one before it. -/
theorem labels_kept_iff {unit : SourceUnit} {signature : ReducerSignature} {switch : Node}
    (exits : ∀ clause ∈ WrittenClause.ofSwitch unit switch,
      clause.statements ≠ [] → clause.leaves = true) :
    SwitchClause.ofSwitch unit signature switch =
        (HandledClause.ofSwitch unit switch).map (HandledClause.reading unit signature) ∧
      ∀ clause ∈ HandledClause.ofSwitch unit switch,
        ((clause.reading unit signature).labels = clause.labelsRunning ↔
          WrittenClause.DefaultsAreClear clause.before (clause.written :: clause.after)) := by
  refine ⟨SwitchClause.ofSwitch_eq unit signature switch, fun clause member => ?_⟩
  obtain ⟨_, split⟩ := HandledClause.mem_ofSwitch_iff.1 member
  rw [HandledClause.reading, SwitchClause.labels_ofStatements, HandledClause.labelsRunning,
    List.append_left_inj]
  refine WrittenClause.waitingLabels_eq_iff (fun other otherMember => ?_) (List.cons_ne_nil _ _)
  exact exits other (split ▸ List.mem_append_left _ otherMember)

/-- The label of the first clause leads into the default clause, and a case clause stands behind. -/
def defaultBetween : SourceUnit :=
  SourceUnit.ofText ⟨"a.ts"⟩ "switch(a)\x7bcase A:default:f();break;case B:g();break\x7d"

theorem exists_switch_defaultBetween (signature : ReducerSignature) :
    ∃ switch, switchOf? defaultBetween.tree = some switch ∧
      (∀ clause ∈ WrittenClause.ofSwitch defaultBetween switch,
        clause.statements ≠ [] → clause.leaves = true) ∧
      (SwitchClause.ofSwitch defaultBetween signature switch).map SwitchClause.labels =
        [["A", "B"]] ∧
      (HandledClause.ofSwitch defaultBetween switch).map HandledClause.labelsRunning = [["B"]] := by
  have found : ∃ switch ∈ switchOf? defaultBetween.tree,
      (∀ clause ∈ WrittenClause.ofSwitch defaultBetween switch,
        clause.statements.isEmpty = false → clause.leaves = true) ∧
      (HandledClause.ofSwitch defaultBetween switch).map (fun clause =>
        WrittenClause.waitingLabels clause.before ++ [clause.label]) = [["A", "B"]] ∧
      (HandledClause.ofSwitch defaultBetween switch).map HandledClause.labelsRunning = [["B"]] := by
    decide +kernel
  obtain ⟨switch, first, exits, attached, running⟩ := found
  refine ⟨switch, first, fun clause member nonempty => ?_, ?_, running⟩
  · exact exits clause member (by simpa using nonempty)
  · rw [SwitchClause.ofSwitch_eq, List.map_map, ← attached]
    exact List.map_congr_left fun clause _ => SwitchClause.labels_ofStatements _ _ _ _ _

theorem labels_kept_iff_defaultBetween :
    ∃ switch, switchOf? defaultBetween.tree = some switch ∧
      (∀ clause ∈ WrittenClause.ofSwitch defaultBetween switch,
        clause.statements ≠ [] → clause.leaves = true) ∧
      ∀ clause ∈ HandledClause.ofSwitch defaultBetween switch,
        ((clause.reading defaultBetween ⟨"r", "s", "a", "0"⟩).labels = clause.labelsRunning ↔
          WrittenClause.DefaultsAreClear clause.before (clause.written :: clause.after)) := by
  obtain ⟨switch, first, exits, _⟩ := exists_switch_defaultBetween ⟨"r", "s", "a", "0"⟩
  exact ⟨switch, first, exits, (labels_kept_iff exits).2⟩

/-- The label that leads into the default clause is attached to the clause behind that. -/
theorem not_labels_kept_defaultBetween :
    ∃ switch, switchOf? defaultBetween.tree = some switch ∧
      (∀ clause ∈ WrittenClause.ofSwitch defaultBetween switch,
        clause.statements ≠ [] → clause.leaves = true) ∧
      (SwitchClause.ofSwitch defaultBetween ⟨"r", "s", "a", "0"⟩ switch).map SwitchClause.labels ≠
        (HandledClause.ofSwitch defaultBetween switch).map HandledClause.labelsRunning := by
  obtain ⟨switch, first, exits, attached, running⟩ :=
    exists_switch_defaultBetween ⟨"r", "s", "a", "0"⟩
  refine ⟨switch, first, exits, ?_⟩
  rw [attached, running]
  decide

/-! ## Statements -/

namespace WrittenClause

theorem statementsRun_cons (first : WrittenClause) (rest : List WrittenClause) :
    statementsRun (first :: rest) =
      first.statements ++ if first.leaves then [] else statementsRun rest := by
  rw [statementsRun, entered]
  cases first.leaves <;> simp [statementsRun]

/-- Nothing runs when a switch is entered in front of empty clauses only. -/
theorem statementsRun_eq_nil_iff {clauses : List WrittenClause} :
    statementsRun clauses = [] ↔ ∀ clause ∈ clauses, clause.statements = [] := by
  induction clauses with
  | nil => simp [statementsRun, entered]
  | cons first rest inductionHypothesis =>
    rw [statementsRun_cons, List.append_eq_nil_iff, List.forall_mem_cons, ← inductionHypothesis]
    refine and_congr_right fun empty => ?_
    rw [leaves_of_nil empty, if_neg Bool.false_ne_true]

end WrittenClause

/-- What a clause that control falls out of would have to perform is what it is rendered from
exactly when all clauses behind it are empty. -/
theorem HandledClause.statements_eq_iff {clause : HandledClause}
    (falls : clause.written.leaves = false) :
    clause.statements = clause.statementsRunning ↔
      ∀ other ∈ clause.after, other.statements = [] := by
  rw [statementsRunning, WrittenClause.statementsRun_cons, falls, if_neg Bool.false_ne_true,
    ← WrittenClause.statementsRun_eq_nil_iff]
  exact List.self_eq_append_right

/-- No control that falls out of a clause is lost: the migration leaves the unit alone, or it
carries its edits out and renders the handler of each such clause from all that the switch runs from
its label on. -/
def FallthroughKept (config : Config) (path : Path) (types : Option ActionTypes)
    (project : Project) (reading : ReducerReading) : Prop :=
  (∃ reason, migrateReducer config path types project = .ok (.skipped reason) project) ∨
    (∃ edited, Update.apply path (reading.edits config) project = .ok () edited) ∧
      reading.clauses = (HandledClause.ofSwitch reading.unit reading.switch).map
        (HandledClause.reading reading.unit reading.signature) ∧
      ∀ clause ∈ HandledClause.ofSwitch reading.unit reading.switch,
        clause.written.leaves = false → clause.after ≠ [] →
          clause.statements = clause.statementsRunning

/-- The migration refuses no unit for control that falls out of a clause. Such control is lost
unless the clauses that it falls into are all empty, or the unit is skipped as one that is migrated
already. -/
theorem fallthrough_kept_iff {config : Config} {path : Path} {types : Option ActionTypes}
    {project : Project} {reading : ReducerReading} (read : reading.IsOf config path project) :
    FallthroughKept config path types project reading ↔
      reading.unit.calls config.creators.createReducer = true ∨
        ∀ clause ∈ HandledClause.ofSwitch reading.unit reading.switch,
          clause.written.leaves = false → ∀ other ∈ clause.after, other.statements = [] := by
  cases called : reading.unit.calls config.creators.createReducer with
  | true => exact iff_of_true (.inl ⟨_, read.migrateReducer_of_calls types called⟩) (.inl rfl)
  | false =>
    have notSkipped : ¬ ∃ reason,
        migrateReducer config path types project = .ok (.skipped reason) project :=
      fun ⟨_, skipped⟩ => read.migrateReducer_ne_skipped called skipped
    have rendered : reading.clauses = (HandledClause.ofSwitch reading.unit reading.switch).map
        (HandledClause.reading reading.unit reading.signature) := SwitchClause.ofSwitch_eq _ _ _
    rw [FallthroughKept, or_iff_right notSkipped, and_iff_right read.exists_apply,
      and_iff_right rendered, or_iff_right Bool.false_ne_true]
    refine forall₂_congr fun clause _ => forall_congr' fun falls => ?_
    rw [HandledClause.statements_eq_iff falls]
    constructor
    · intro kept other member
      exact kept (List.ne_nil_of_mem member) other member
    · exact fun empty _ => empty

/-- Control falls out of the first clause into the second. -/
def fallsInto : Project :=
  ofSources ⟨""⟩ {}
    [(⟨"a.ts"⟩, "function xReducer(s=0,a)\x7bswitch(a.type)\x7bcase A:f();case B:return s\x7d\x7d")]

theorem exists_reading_fallsInto :
    ∃ reading : ReducerReading, reading.IsOf {} ⟨"a.ts"⟩ fallsInto ∧
      reading.unit.calls ({} : Config).creators.createReducer = false ∧
      (reading.clauses.map fun clause => (clause.labels, clause.body)) =
        [(["A"], "\x7b\nf();\n\x7d"), (["B"], "s")] ∧
      ∃ clause ∈ HandledClause.ofSwitch reading.unit reading.switch,
        clause.written.leaves = false ∧ clause.after ≠ [] ∧
          clause.statements ≠ clause.statementsRunning ∧
          clause.statementsRunning.map reading.unit.textOf = ["f();", "return s"] := by
  have found : ∃ unit ∈ fallsInto.unit? ⟨"a.ts"⟩,
      ∃ declaration ∈ reducingFunction? ({} : Config).naming unit,
      ∃ switch ∈ switchOf? declaration.node,
        unit.calls ({} : Config).creators.createReducer = false ∧
        ((SwitchClause.ofSwitch unit (ReducerSignature.ofFunction unit declaration.node)
          switch).map fun clause => (clause.labels, clause.body)) =
            [(["A"], "\x7b\nf();\n\x7d"), (["B"], "s")] ∧
        ∃ clause ∈ HandledClause.ofSwitch unit switch,
          clause.written.leaves = false ∧ clause.after.isEmpty = false ∧
            clause.statements.length ≠ clause.statementsRunning.length ∧
            clause.statementsRunning.map unit.textOf = ["f();", "return s"] := by
    decide +kernel
  obtain ⟨unit, found, declaration, function, switch, first, fresh, registered, clause, member,
    falls, followed, lost, running⟩ := found
  refine ⟨⟨unit, declaration, switch⟩, ⟨found, function, first⟩, fresh, registered, clause, member,
    falls, ?_, fun same => lost (congrArg List.length same), running⟩
  simpa using followed

theorem fallthrough_kept_iff_fallsInto :
    ∃ reading : ReducerReading, reading.IsOf {} ⟨"a.ts"⟩ fallsInto ∧
      (FallthroughKept {} ⟨"a.ts"⟩ none fallsInto reading ↔
        reading.unit.calls ({} : Config).creators.createReducer = true ∨
          ∀ clause ∈ HandledClause.ofSwitch reading.unit reading.switch,
            clause.written.leaves = false → ∀ other ∈ clause.after, other.statements = []) := by
  obtain ⟨reading, read, _⟩ := exists_reading_fallsInto
  exact ⟨reading, read, fallthrough_kept_iff read⟩

/-- The second clause is lost for the label of the first one, whose handler stops behind its own
statement. -/
theorem not_fallthrough_kept_fallsInto :
    ∃ reading : ReducerReading, reading.IsOf {} ⟨"a.ts"⟩ fallsInto ∧
      (reading.clauses.map fun clause => (clause.labels, clause.body)) =
        [(["A"], "\x7b\nf();\n\x7d"), (["B"], "s")] ∧
      (∃ clause ∈ HandledClause.ofSwitch reading.unit reading.switch,
        clause.statementsRunning.map reading.unit.textOf = ["f();", "return s"]) ∧
      ¬ FallthroughKept {} ⟨"a.ts"⟩ none fallsInto reading := by
  obtain ⟨reading, read, fresh, registered, clause, member, falls, followed, lost, running⟩ :=
    exists_reading_fallsInto
  refine ⟨reading, read, registered, ⟨clause, member, running⟩, ?_⟩
  rintro (⟨reason, skipped⟩ | ⟨_, _, kept⟩)
  · exact read.migrateReducer_ne_skipped fresh skipped
  · exact lost (kept clause member falls followed)

end CreatorMigration
