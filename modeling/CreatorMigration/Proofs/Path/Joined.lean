import CreatorMigration.Proofs.Path.Location
import CreatorMigration.Proofs.Path.Specifier

/-! # Paths that are joined

A relative path that is put behind a directory is climbed from where the climb of the directory ends.

* `Path.foldl_push_under_eq_stack` is the stack of a joined path, by the climbs of both parts.
* `Path.normalize_under_eq_iff` tells by the climbs whether a joined path has some normal form.
-/

namespace CreatorMigration

namespace Path

namespace Climb

/-- A climb that goes on where another one ends: its steps up first take back names of that one. -/
def andThen (first next : Climb) : Climb where
  ups := first.ups + (next.ups - first.names.length)
  names := first.names.take (first.names.length - next.ups) ++ next.names

theorem ups_andThen (first next : Climb) :
    (first.andThen next).ups = first.ups + (next.ups - first.names.length) := rfl

/-- No names of the first climb are left if the second one goes up often enough. -/
theorem names_andThen_eq_iff (first next : Climb) :
    (first.andThen next).names = next.names ↔ first.names.length ≤ next.ups := by
  rw [andThen, List.append_left_eq_self, List.take_eq_nil_iff, ← List.length_eq_zero_iff]
  omega

theorem step_andThen (first next : Climb) (component : Component) :
    (first.andThen next).step component = first.andThen (next.step component) := by
  cases component with
  | root | current => rfl
  | name text => simp only [step, andThen, List.append_assoc]
  | parent =>
    by_cases named : next.names = []
    · by_cases high : first.names.length ≤ next.ups
      · have taken : first.names.length - next.ups = 0 := by omega
        have takenThen : first.names.length - (next.ups + 1) = 0 := by omega
        simp only [step, andThen, named, taken, takenThen, List.take_zero, List.append_nil, if_true,
          mk.injEq, and_true]
        omega
      -- going up one more drops the last name of the first climb that is left
      · have left : first.names.take (first.names.length - next.ups) ≠ [] := by
          rw [ne_eq, List.take_eq_nil_iff, not_or, ← List.length_eq_zero_iff]
          omega
        simp only [step, andThen, named, List.append_nil, left, if_false, if_true, mk.injEq]
        refine ⟨by omega, ?_⟩
        rw [List.dropLast_eq_take, List.length_take, List.take_take]
        congr 1
        omega
    · have joined : first.names.take (first.names.length - next.ups) ++ next.names ≠ [] := by
        simp [named]
      simp only [step, andThen, named, joined, if_false, List.dropLast_append_of_ne_nil named]

theorem foldl_step_andThen (first next : Climb) (components : List Component) :
    components.foldl step (first.andThen next) = first.andThen (components.foldl step next) := by
  induction components generalizing next with
  | nil => rfl
  | cons component rest inductionHypothesis =>
    rw [List.foldl_cons, List.foldl_cons, step_andThen, inductionHypothesis]

theorem andThen_nil (climb : Climb) : climb.andThen ⟨0, []⟩ = climb := by
  simp [andThen]

/-- What is left of a climb in a normal form. -/
theorem stack_eq_iff {lead : List Component} (leads : lead = [] ∨ lead = [.root])
    (left right : Climb) :
    left.stack lead = right.stack lead ↔
      left.ups % 2 = right.ups % 2 ∧ left.names = right.names := by
  constructor
  · intro same
    have written := congrArg (fun stack => stack.reverse.foldl step ⟨0, []⟩) same
    simp only [stack, List.reverse_reverse, foldl_step_written leads, mk.injEq] at written
    exact written
  · rintro ⟨ups, names⟩
    rw [stack, stack, ups, names]

end Climb

/-! ## Stacks of whole paths -/

theorem normalLead_cases (path : Path) : path.normalLead = [] ∨ path.normalLead = [.root] := by
  unfold normalLead
  split
  · exact .inr rfl
  · exact .inl rfl

theorem foldl_push_eq_stack (path : Path) :
    path.components.foldl push [] = path.climb.stack path.normalLead := by
  have written := components_normalize_climb path
  rw [components_normalize, normalComponents, List.reverse_eq_iff] at written
  exact written

theorem normalize_eq_iff {left right : Path} :
    left.normalize = right.normalize ↔
      left.components.foldl push [] = right.components.foldl push [] := by
  constructor
  · intro same
    have read := congrArg components same
    rw [components_normalize, components_normalize] at read
    exact List.reverse_inj.1 read
  · intro same
    rw [normalize, normalize, normalComponents, normalComponents, same]

/-- The text of a relative path is walked as its components are. -/
theorem walk_eq_foldl_push {path : Path} (relative : path.isAbsolute = false)
    (stack : List Component) : walk stack path.text = path.components.foldl push stack := by
  unfold isAbsolute at relative
  unfold walk
  rw [components] at relative ⊢
  cases split : Text.splitOn '/' path.text with
  | nil => rfl
  | cons first rest =>
    rw [split] at relative
    dsimp only at relative ⊢
    by_cases empty : first = ""
    · rw [if_pos empty] at relative ⊢
      cases rest with
      | nil => simp [empty, Component.ofSegment?]
      | cons second rest => simp at relative
    · rw [if_neg empty, List.filterMap_cons]
      -- a single dot in front is a component, but one that pushes nothing
      by_cases dot : first = "."
      · simp [dot, Component.ofSegment?, push]
      · rw [if_neg dot]
        cases Component.ofSegment? first <;> rfl

/-- Beginning with a directory, a relative path is climbed from there. -/
theorem foldl_push_under_eq_stack (base : Path) {path : Path} (relative : path.isAbsolute = false) :
    (base.under path).components.foldl push [] =
      (base.climb.andThen path.climb).stack base.normalLead := by
  rw [foldl_push_under_of_relative base relative, walk_eq_foldl_push relative, foldl_push_eq_stack]
  obtain ⟨lead, segments, shape, allSegments, leads⟩ := exists_segments path
  have whole : path.components.foldl Climb.step base.climb = base.climb.andThen path.climb := by
    have joined := Climb.foldl_step_andThen base.climb ⟨0, []⟩ path.components
    rwa [Climb.andThen_nil] at joined
  have started : segments.foldl Climb.step base.climb = base.climb.andThen path.climb := by
    rw [← whole, shape, List.foldl_append]
    rcases leads with ⟨rfl, _⟩ | ⟨rfl | rfl, _⟩ <;> rfl
  rw [shape, List.foldl_append, ← started]
  rcases leads with ⟨rfl, absolute⟩ | ⟨rfl | rfl, _⟩
  · rw [relative] at absolute
    cases absolute
  all_goals exact Climb.foldl_push allSegments (normalLead_cases base) base.climb

/-- A joined path comes to a normal form if it goes as far up and then along the same names. -/
theorem normalize_under_eq_iff {base path other : Path} (relative : path.isAbsolute = false)
    (sameLead : base.normalLead = other.normalLead) :
    (base.under path).normalize = other.normalize ↔
      (base.climb.andThen path.climb).ups % 2 = other.climb.ups % 2 ∧
        (base.climb.andThen path.climb).names = other.climb.names := by
  rw [normalize_eq_iff, foldl_push_under_eq_stack base relative, foldl_push_eq_stack, sameLead,
    Climb.stack_eq_iff other.normalLead_cases]

end Path

end CreatorMigration
