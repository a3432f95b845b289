import CreatorMigration.Disk
import CreatorMigration.Proofs.Path.Normal
import Mathlib.Data.List.Induction

/-! # Where normal forms lead

A path leads somewhere from every directory: a name goes down, `..` goes up. Its normal form leads to
the same place as long as no more than one `..` is left without a name in front of it; a second one
takes the first one away.
-/

namespace CreatorMigration

open Disk (enter)

namespace Path

/-! ## What a path comes to -/

/-- How far a path goes up before it goes down, and along which names. -/
structure Climb where
  ups : Nat
  names : List String

namespace Climb

/-- A `..` takes back the last name, and goes up where there is none. -/
def step (climb : Climb) : Component → Climb
  | .parent =>
      if climb.names = [] then { climb with ups := climb.ups + 1 }
      else { climb with names := climb.names.dropLast }
  | .name text => { climb with names := climb.names ++ [text] }
  | .root | .current => climb

/-- Where a climb ends that starts in a directory; there is nothing above the root. -/
def endFrom (base : Location) (climb : Climb) : Location :=
  base.take (base.length - climb.ups) ++ climb.names

/-- The components of a normal form, the last of them first. -/
def stack (lead : List Component) (climb : Climb) : List Component :=
  (lead ++ List.replicate (climb.ups % 2) Component.parent ++
    climb.names.map Component.name).reverse

end Climb

def climb (path : Path) : Climb := path.components.foldl Climb.step ⟨0, []⟩

/-! ## The promise -/

/-- From every directory that is deep enough the normal form leads where the path does. -/
def KeepsPlace (path : Path) : Prop :=
  ∀ disk : Disk, path.climb.ups ≤ disk.workingDirectory.length →
    disk.locationOf path.normalize = disk.locationOf path

/-- The normal form of a relative path has a `..` for each one that goes up, and the names behind. -/
def KeepsParents (path : Path) : Prop :=
  path.isAbsolute = false →
    path.normalize.components =
      List.replicate path.climb.ups .parent ++ path.climb.names.map .name

/-! ## Step by step -/

namespace Climb

variable {component : Component}

theorem enter_endFrom (base : Location) (climb : Climb) (segment : component.IsSegment) :
    enter (climb.endFrom base) component = (climb.step component).endFrom base := by
  cases component with
  | root | current => exact segment.elim
  | name text => rw [enter, step, endFrom, endFrom, List.append_assoc]
  | parent =>
    rw [enter, step]
    split
    · next noName =>
      rw [endFrom, endFrom, noName, List.append_nil, List.append_nil, List.dropLast_eq_take,
        List.length_take, List.take_take]
      congr 1
      dsimp only
      omega
    · next named => rw [endFrom, endFrom, List.dropLast_append_of_ne_nil named]

theorem push_stack {lead : List Component} (leads : lead = [] ∨ lead = [.root]) (climb : Climb)
    (segment : component.IsSegment) :
    push (climb.stack lead) component = (climb.step component).stack lead := by
  obtain ⟨ups, names⟩ := climb
  cases component with
  | root | current => exact segment.elim
  | name text => simp [push_name, stack, step]
  | parent =>
    cases names using List.reverseRecOn with
    | append_singleton front last => simp [stack, step, push]
    -- without a name the `..` meets the bottom, which has one `..` or none
    | nil =>
      rcases leads with rfl | rfl <;>
        rcases Nat.mod_two_eq_zero_or_one ups with even | odd <;>
          simp [stack, step, push, Nat.add_mod, *]

/-- What is written as a number of `..` and some names is climbed as it is written. -/
theorem foldl_step_written {lead : List Component} (leads : lead = [] ∨ lead = [.root])
    (count : Nat) (names : List String) :
    (lead ++ List.replicate count Component.parent ++ names.map Component.name).foldl step ⟨0, []⟩ =
      ⟨count, names⟩ := by
  have parents (count ups : Nat) :
      (List.replicate count Component.parent).foldl step ⟨ups, []⟩ = ⟨ups + count, []⟩ := by
    induction count generalizing ups with
    | zero => rfl
    | succ count inductionHypothesis =>
      rw [List.replicate_succ, List.foldl_cons]
      exact (inductionHypothesis (ups + 1)).trans (by rw [Nat.add_right_comm, Nat.add_assoc])
  have down (names front : List String) (ups : Nat) :
      (names.map Component.name).foldl step ⟨ups, front⟩ = ⟨ups, front ++ names⟩ := by
    induction names generalizing front with
    | nil => rw [List.append_nil]; rfl
    | cons first rest inductionHypothesis =>
      rw [List.map_cons, List.foldl_cons]
      exact (inductionHypothesis (front ++ [first])).trans (by rw [List.append_assoc]; rfl)
  have leadPassed : lead.foldl step ⟨0, []⟩ = ⟨0, []⟩ := by
    rcases leads with rfl | rfl <;> rfl
  rw [List.foldl_append, List.foldl_append, leadPassed, parents, down, Nat.zero_add,
    List.nil_append]

variable {segments : List Component} (allSegments : ∀ segment ∈ segments, segment.IsSegment)

include allSegments

theorem foldl_enter (base : Location) (climb : Climb) :
    segments.foldl enter (climb.endFrom base) = (segments.foldl step climb).endFrom base := by
  induction segments generalizing climb with
  | nil => rfl
  | cons first rest inductionHypothesis =>
    obtain ⟨firstSegment, restSegments⟩ := List.forall_mem_cons.1 allSegments
    rw [List.foldl_cons, enter_endFrom base climb firstSegment]
    exact inductionHypothesis restSegments _

theorem foldl_push {lead : List Component} (leads : lead = [] ∨ lead = [.root]) (climb : Climb) :
    segments.foldl push (climb.stack lead) = (segments.foldl step climb).stack lead := by
  induction segments generalizing climb with
  | nil => rfl
  | cons first rest inductionHypothesis =>
    obtain ⟨firstSegment, restSegments⟩ := List.forall_mem_cons.1 allSegments
    rw [List.foldl_cons, push_stack leads climb firstSegment]
    exact inductionHypothesis restSegments _

theorem reverse_foldl_push {lead : List Component} (leads : lead = [] ∨ lead = [.root]) :
    (segments.foldl push lead).reverse =
      lead ++ List.replicate ((segments.foldl step ⟨0, []⟩).ups % 2) .parent ++
        (segments.foldl step ⟨0, []⟩).names.map .name := by
  have bottom : stack lead ⟨0, []⟩ = lead := by
    rcases leads with rfl | rfl <;> rfl
  have pushed := foldl_push allSegments leads ⟨0, []⟩
  rw [bottom] at pushed
  rw [pushed, stack, List.reverse_reverse]

end Climb

/-! ## Whole paths -/

/-- What stands in front of the segments of a normal form. -/
def normalLead (path : Path) : List Component := if path.isAbsolute then [.root] else []

/-- Segments behind a lead that says whether the path is absolute. -/
theorem exists_segments (path : Path) :
    ∃ lead segments, path.components = lead ++ segments ∧
      (∀ segment ∈ segments, segment.IsSegment) ∧
      (lead = [.root] ∧ path.isAbsolute = true ∨
        (lead = [] ∨ lead = [.current]) ∧ path.isAbsolute = false) := by
  obtain ⟨lead, segments, shape, leads, allSegments⟩ := components_shape path
  refine ⟨lead, segments, shape, allSegments, ?_⟩
  unfold isAbsolute
  rw [shape]
  rcases leads with rfl | rfl | rfl
  · refine .inr ⟨.inl rfl, ?_⟩
    cases segments with
    | nil => rfl
    | cons first rest =>
      cases first with
      | root | current => exact (allSegments _ List.mem_cons_self).elim
      | parent | name => rfl
  · exact .inl ⟨rfl, rfl⟩
  · exact .inr ⟨.inr rfl, rfl⟩

theorem components_normalize_climb (path : Path) :
    path.normalize.components =
      path.normalLead ++ List.replicate (path.climb.ups % 2) .parent ++
        path.climb.names.map .name := by
  obtain ⟨lead, segments, shape, allSegments, leads⟩ := exists_segments path
  rw [components_normalize, normalComponents, normalLead, climb, shape, List.foldl_append,
    List.foldl_append]
  rcases leads with ⟨rfl, absolute⟩ | ⟨rfl | rfl, relative⟩
  · rw [if_pos absolute]
    exact Climb.reverse_foldl_push allSegments (.inr rfl)
  all_goals
    rw [if_neg (Bool.eq_false_iff.1 relative)]
    exact Climb.reverse_foldl_push allSegments (.inl rfl)

theorem climb_normalize (path : Path) :
    path.normalize.climb = ⟨path.climb.ups % 2, path.climb.names⟩ := by
  rw [climb, components_normalize_climb]
  refine Climb.foldl_step_written ?_ _ _
  unfold normalLead
  split
  · exact .inr rfl
  · exact .inl rfl

theorem isAbsolute_normalize (path : Path) : path.normalize.isAbsolute = path.isAbsolute := by
  rw [isAbsolute, components_normalize_climb, normalLead]
  cases path.isAbsolute with
  | true => rfl
  | false =>
    rcases Nat.mod_two_eq_zero_or_one path.climb.ups with even | odd
    · cases path.climb.names <;> simp [even]
    · simp [odd]

/-- A path leads where its climb ends, from the root if it is absolute. -/
theorem locationOf_eq (disk : Disk) (path : Path) :
    disk.locationOf path =
      path.climb.endFrom (if path.isAbsolute then [] else disk.workingDirectory) := by
  obtain ⟨lead, segments, shape, allSegments, leads⟩ := exists_segments path
  have started (base : Location) : Climb.endFrom base ⟨0, []⟩ = base := by simp [Climb.endFrom]
  rw [Disk.locationOf, climb, shape, List.foldl_append, List.foldl_append]
  rcases leads with ⟨rfl, absolute⟩ | ⟨rfl | rfl, relative⟩
  · rw [absolute]
    exact Climb.foldl_enter allSegments [] ⟨0, []⟩
  all_goals
    have entered := Climb.foldl_enter allSegments disk.workingDirectory ⟨0, []⟩
    rw [started] at entered
    rw [relative]
    exact entered

/-! ## When the promise is kept -/

/-- The names stay as they are, so only the number of `..` matters. -/
theorem endFrom_mod_two_iff {base : Location} (climb : Climb) (deep : climb.ups ≤ base.length) :
    Climb.endFrom base ⟨climb.ups % 2, climb.names⟩ = climb.endFrom base ↔ climb.ups ≤ 1 := by
  rw [Climb.endFrom, Climb.endFrom, List.append_left_inj]
  constructor
  · intro same
    have lengths := congrArg List.length same
    rw [List.length_take, List.length_take] at lengths
    dsimp only at lengths
    omega
  · intro few
    rw [Nat.mod_eq_of_lt (Nat.lt_succ_of_le few)]

/-- The normal form of a path leads where the path does, and has all its leading `..`, exactly when
the path is absolute or at most one `..` goes up. Of the others every second one is left. -/
theorem keepsPlace_iff (path : Path) :
    path.normalize.components =
        path.normalLead ++ List.replicate (path.climb.ups % 2) .parent ++
          path.climb.names.map .name ∧
      (path.KeepsPlace ↔ path.isAbsolute = true ∨ path.climb.ups ≤ 1) ∧
      (path.KeepsParents ↔ path.isAbsolute = true ∨ path.climb.ups ≤ 1) := by
  refine ⟨components_normalize_climb path, ?_, ?_⟩
  · unfold KeepsPlace
    simp only [locationOf_eq, isAbsolute_normalize, climb_normalize]
    cases path.isAbsolute with
    | true => simp [Climb.endFrom]
    | false =>
      simp only [Bool.false_eq_true, if_false, false_or]
      constructor
      · intro keeps
        -- a directory that is just deep enough tells them apart
        have deep : path.climb.ups ≤ (List.replicate path.climb.ups "").length := by simp
        have kept := keeps ⟨List.replicate path.climb.ups "", []⟩ deep
        exact (endFrom_mod_two_iff path.climb deep).1 kept
      · exact fun few disk deep => (endFrom_mod_two_iff path.climb deep).2 few
  · unfold KeepsParents
    rw [components_normalize_climb, normalLead]
    cases path.isAbsolute with
    | true => simp
    | false =>
      simp only [Bool.false_eq_true, if_false, List.nil_append, List.append_left_inj, false_or,
        forall_const, List.replicate_inj, or_true, and_true]
      omega

/-- Two directories up and one down comes out as one down. -/
theorem not_keepsPlace_twoParents :
    ¬ (⟨"../../x"⟩ : Path).KeepsPlace ∧ ¬ (⟨"../../x"⟩ : Path).KeepsParents := by
  refine ⟨fun keeps => ?_, fun keeps => ?_⟩
  · have kept := keeps { workingDirectory := ["a", "b"], entries := [] } (by decide)
    revert kept
    decide
  · have kept := keeps (by decide)
    revert kept
    decide

end Path

end CreatorMigration
