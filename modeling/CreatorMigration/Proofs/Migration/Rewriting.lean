import CreatorMigration.Proofs.Migration.Registration
import CreatorMigration.Proofs.Project.Failures
import Mathlib.Data.List.Pairwise

/-! # Reducers are not refused

The table goes in front of the function, the type of the events into its parameters and the call of
the table into its body. These edits keep clear of each other, so the migration carries them out for
every reducing function with a switch.
-/

namespace CreatorMigration

open Project Update

/-! ## Edits inside of a node -/

theorem Node.role_of_child? {node child : Node} {role : Role}
    (found : node.child? role = some child) : child.role = some role := by
  simpa using List.find?_some found

/-- Two children of a node do not overlap. -/
theorem Node.IsPlaced.overlaps_children {text : String} {node first second : Node}
    (placed : node.IsPlaced text) (firstMember : first ∈ node.children)
    (secondMember : second ∈ node.children) (different : first ≠ second) :
    first.span.overlaps second.span = false := by
  have symmetric : Std.Symm fun first second : Node => first.span.overlaps second.span = false :=
    ⟨fun _ _ clear => (Span.overlaps_comm _ _).trans clear⟩
  have apart : node.children.Pairwise fun first second =>
      first.span.overlaps second.span = false :=
    (List.pairwise_map.1 placed.children.inOrder.pairwise).imp fun behind =>
      Span.overlaps_eq_false_iff.2 (.inr behind)
  exact apart.forall firstMember secondMember different

/-- The edit spans characters of a text inside of another span. -/
structure Edit.IsInside (text : String) (outer : Span) (edit : Edit) : Prop where
  isIn : edit.span.IsIn text
  start : outer.start ≤ edit.span.start
  stop : edit.span.stop ≤ outer.stop

theorem Edit.IsInside.overlaps {text : String} {outer other : Span} {first second : Edit}
    (firstInside : first.IsInside text outer) (secondInside : second.IsInside text other)
    (apart : outer.overlaps other = false) : first.overlaps second = false := by
  refine Edit.overlaps_eq_false_iff.2 ?_
  rcases Span.overlaps_eq_false_iff.1 apart with behind | inFront
  · exact .inl (secondInside.stop.trans (behind.trans firstInside.start))
  · exact .inr (firstInside.stop.trans (inFront.trans secondInside.start))

theorem isInside_parameterEdit {text : String} {list : Node} (placed : list.IsPlaced text)
    (creators : CreatorNames) (signature : ReducerSignature) :
    (parameterEdit creators signature list).IsInside text list.span := by
  have inside : ∀ parameter ∈ SourceUnit.parameterNodes list, parameter.span.IsIn text ∧
      list.span.start ≤ parameter.span.start ∧ parameter.span.stop ≤ list.span.stop := by
    intro parameter member
    have child : parameter ∈ list.children := (List.mem_filter.1 (List.mem_filter.1 member).1).1
    obtain ⟨starts, isIn, stops⟩ := placed.children.inOrder.isIn (List.mem_map_of_mem child)
    exact ⟨isIn, starts, stops⟩
  unfold parameterEdit
  split
  · next first second rest parameters =>
    obtain ⟨isIn, starts, stops⟩ := inside second (by simp [parameters])
    exact ⟨isIn, starts, stops⟩
  · next state parameters =>
    obtain ⟨isIn, starts, stops⟩ := inside state (by simp [parameters])
    exact ⟨Span.isIn_point isIn.stop_isBoundary, starts.trans isIn.ordered, stops⟩
  · exact ⟨placed.isIn, Nat.le_refl _, Nat.le_refl _⟩

/-! ## The edits of a reading -/

namespace ReducerReading

variable {config : Config} {path : Path} {project : Project} {reading : ReducerReading}

theorem IsOf.mem_declarations (read : reading.IsOf config path project) :
    reading.declaration ∈ reading.unit.declarations :=
  (List.mem_filter.1 (List.mem_of_find?_eq_some read.function)).1

section

variable (read : reading.IsOf config path project)

include read

theorem IsOf.isPlaced : reading.declaration.node.IsPlaced reading.unit.text :=
  (SourceUnit.isPlaced_of_mem_declarations read.mem_declarations).1

/-- The table goes in front of the function. -/
theorem IsOf.table_inFront :
    Text.isBoundary reading.unit.text
        (reading.unit.documentedStart reading.declaration.statement) = true ∧
      reading.unit.documentedStart reading.declaration.statement ≤
        reading.declaration.node.span.start := by
  obtain ⟨isIn, above⟩ := SourceUnit.isIn_documented
    (SourceUnit.mem_topLevel_of_mem_declarations read.mem_declarations)
  exact ⟨isIn.start_isBoundary,
    above.trans (SourceUnit.isPlaced_of_mem_declarations read.mem_declarations).2⟩

theorem IsOf.isInside_parameters {list : Node}
    (found : reading.declaration.node.child? .parameters = some list) :
    (parameterEdit config.creators reading.signature list).IsInside reading.unit.text list.span :=
  isInside_parameterEdit (read.isPlaced.child? found) _ _

theorem IsOf.isInside_body {body : Node}
    (found : reading.declaration.node.child? .body = some body) :
    (delegationEdit config.creators reading.signature body).IsInside reading.unit.text body.span :=
  ⟨(read.isPlaced.child? found).isIn, Nat.le_refl _, Nat.le_refl _⟩

theorem IsOf.isIn_edits : ∀ edit ∈ reading.edits config, edit.span.IsIn reading.unit.text := by
  intro edit member
  rw [edits, reducerEdits, List.cons_append, List.mem_cons, List.mem_append] at member
  rcases member with rfl | member | member
  · exact Span.isIn_point read.table_inFront.1
  · obtain ⟨list, found, rfl⟩ := Option.map_eq_some_iff.1 (Option.mem_toList.1 member)
    exact (read.isInside_parameters found).isIn
  · obtain ⟨body, found, rfl⟩ := Option.map_eq_some_iff.1 (Option.mem_toList.1 member)
    exact (read.isInside_body found).isIn

theorem IsOf.disjoint_edits : Edit.Disjoint (reading.edits config) := by
  have placed := read.isPlaced
  -- what is inside of a child of the function stands behind the table
  have behind : ∀ {role child edit}, reading.declaration.node.child? role = some child →
      edit.IsInside reading.unit.text child.span →
      (Edit.insert (reading.unit.documentedStart reading.declaration.statement)
        (reading.table config)).overlaps edit = false := by
    intro role child edit found inside
    have start := (placed.children.inOrder.isIn
      (List.mem_map_of_mem (List.mem_of_find?_eq_some found))).1
    exact Edit.overlaps_eq_false_iff.2 (.inr (read.table_inFront.2.trans
      (start.trans inside.start)))
  rw [edits, reducerEdits, List.cons_append, Edit.Disjoint, List.pairwise_cons,
    List.pairwise_append]
  have single {edit? : Option Edit} :
      edit?.toList.Pairwise fun first second => first.overlaps second = false := by
    cases edit? <;> simp
  refine ⟨fun edit member => ?_, single, single, fun first firstMember second secondMember => ?_⟩
  · rcases List.mem_append.1 member with member | member
    · obtain ⟨list, found, rfl⟩ := Option.map_eq_some_iff.1 (Option.mem_toList.1 member)
      exact behind found (read.isInside_parameters found)
    · obtain ⟨body, found, rfl⟩ := Option.map_eq_some_iff.1 (Option.mem_toList.1 member)
      exact behind found (read.isInside_body found)
  · obtain ⟨list, found, rfl⟩ := Option.map_eq_some_iff.1 (Option.mem_toList.1 firstMember)
    obtain ⟨body, foundBody, rfl⟩ := Option.map_eq_some_iff.1 (Option.mem_toList.1 secondMember)
    have insideList := read.isInside_parameters found
    have insideBody := read.isInside_body foundBody
    have different : list ≠ body := by
      rintro rfl
      cases (Node.role_of_child? found).symm.trans (Node.role_of_child? foundBody)
    exact insideList.overlaps insideBody (placed.overlaps_children
      (List.mem_of_find?_eq_some found) (List.mem_of_find?_eq_some foundBody) different)

/-- The edits of a reading are carried out. -/
theorem IsOf.exists_apply : ∃ edited,
    Update.apply path (reading.edits config) project = .ok () edited := by
  have carriedOut : ¬ (Update.apply path (reading.edits config)).Fails project := by
    rw [fails_apply_iff read.found read.isIn_edits, not_not]
    exact read.disjoint_edits
  obtain ⟨_, edited, applied⟩ := not_fails_iff.1 carriedOut
  exact ⟨edited, applied⟩

/-! ## The migration -/

/-- A unit that is migrated already is skipped. -/
theorem IsOf.migrateReducer_of_calls (types : Option ActionTypes)
    (called : reading.unit.calls config.creators.createReducer = true) :
    migrateReducer config path types project = .ok (.skipped .alreadyMigrated) project := by
  refine bind_eq_ok_iff.2 ⟨project, project, get_eq_ok_iff.2 ⟨rfl, rfl⟩, ?_⟩
  simp only [read.found, called]
  exact pure_eq_ok_iff.2 ⟨rfl, rfl⟩

/-- Any other unit with a reducing function and a switch is not skipped. -/
theorem IsOf.migrateReducer_ne_skipped {types : Option ActionTypes} {reason : SkipReason}
    {result : Project} (fresh : reading.unit.calls config.creators.createReducer = false) :
    migrateReducer config path types project ≠ .ok (.skipped reason) result := by
  intro ran
  obtain ⟨_, _, got, rest⟩ := bind_eq_ok_iff.1 ran
  obtain ⟨rfl, rfl⟩ := get_eq_ok_iff.1 got
  simp only [read.found, fresh, read.function, read.switch] at rest
  obtain ⟨_, _, _, answered⟩ := bind_eq_ok_iff.1 rest
  cases (pure_eq_ok_iff.1 answered).1

end

end ReducerReading

end CreatorMigration
