import CreatorMigration.Project.Basic

/-! # Updates of projects

An `Update` runs over a project and may fail on its way. What it has changed before it failed stays
changed: a failing update answers with an error and with the project that it leaves behind.

* `Update.require` finds a unit.
* `Update.apply` is the only update that changes a text; it changes one unit or fails and changes
  nothing.
* `Update.bind_eq_ok_iff` takes a successful run apart into its steps.
-/

namespace CreatorMigration

abbrev Update (ε α : Type) := EStateM ε Project α

namespace Update

variable {ε α : Type}

/-- The error and the project, or the answer and the project, that an update ends with. -/
def run (update : Update ε α) (project : Project) : Except ε α × Project :=
  match EStateM.run update project with
  | .ok answer project => (.ok answer, project)
  | .error error project => (.error error, project)

/-- Turns the errors of an update into errors of another kind. -/
def withError {δ : Type} (change : ε → δ) (update : Update ε α) : Update δ α :=
  fun project =>
    match update project with
    | .ok answer project => .ok answer project
    | .error error project => .error (change error) project

/-- Ends with the answer of a question to the project, or fails with its error. -/
def ask (question : Project → Except ε α) : Update ε α :=
  fun project =>
    match question project with
    | .ok answer => .ok answer project
    | .error error => .error error project

/-- Takes a step that succeeds as a whole or leaves the project alone. -/
def step (change : Project → Except ε Project) : Update ε Unit :=
  fun project =>
    match change project with
    | .ok changed => .ok () changed
    | .error error => .error error project

def require (path : Path) : Update ProjectError SourceUnit :=
  ask fun project => project.require path

def apply (path : Path) (edits : List Edit) : Update ProjectError Unit :=
  step fun project => project.apply path edits

/-! ## Runs -/

variable {σ β : Type} {state next : σ} {project result : Project}

theorem run_of_ok {update : Update ε α} {answer : α} (ran : update project = .ok answer result) :
    update.run project = (.ok answer, result) := by
  unfold run EStateM.run
  rw [ran]

theorem run_of_error {update : Update ε α} {error : ε} (ran : update project = .error error result) :
    update.run project = (.error error, result) := by
  unfold run EStateM.run
  rw [ran]

theorem pure_eq_ok_iff {value answer : α} :
    (pure value : EStateM ε σ α) state = .ok answer next ↔ value = answer ∧ state = next := by
  change EStateM.Result.ok value state = .ok answer next ↔ _
  simp

theorem get_eq_ok_iff {answer : σ} :
    (get : EStateM ε σ σ) state = .ok answer next ↔ state = answer ∧ state = next := by
  change EStateM.Result.ok state state = .ok answer next ↔ _
  simp

/-- Behind an activity that succeeds the next one goes on with what it left. -/
theorem bind_of_ok {first : EStateM ε σ α} {second : α → EStateM ε σ β} {answer : α}
    (ran : first state = .ok answer next) : (first >>= second) state = second answer next := by
  change EStateM.bind first second state = _
  rw [EStateM.bind, ran]

theorem bind_of_error {first : EStateM ε σ α} {second : α → EStateM ε σ β} {error : ε}
    (ran : first state = .error error next) :
    (first >>= second) state = .error error next := by
  change EStateM.bind first second state = _
  rw [EStateM.bind, ran]

/-- One activity after another succeeds when both do. -/
theorem bind_eq_ok_iff {first : EStateM ε σ α} {second : α → EStateM ε σ β} {answer : β} :
    (first >>= second) state = .ok answer next ↔
      ∃ middle between, first state = .ok middle between ∧
        second middle between = .ok answer next := by
  change EStateM.bind first second state = .ok answer next ↔ _
  unfold EStateM.bind
  cases first state <;> simp [and_assoc]

/-- Whether a run succeeds with an answer and a state that pass a test. -/
def succeedsWith (passes : α → σ → Bool) : EStateM.Result ε σ α → Bool
  | .ok answer state => passes answer state
  | .error _ _ => false

theorem exists_of_succeedsWith {passes : α → σ → Bool} {outcome : EStateM.Result ε σ α}
    (succeeds : succeedsWith passes outcome = true) :
    ∃ answer state, outcome = .ok answer state ∧ passes answer state = true := by
  cases outcome with
  | ok answer state => exact ⟨answer, state, rfl, succeeds⟩
  | error => cases succeeds

theorem withError_eq_ok_iff {δ : Type} {change : ε → δ} {update : Update ε α} {answer : α} :
    update.withError change project = .ok answer result ↔ update project = .ok answer result := by
  unfold withError
  cases update project <;> simp

theorem require_eq_ok_iff {path : Path} {unit : SourceUnit} :
    require path project = .ok unit result ↔ project.unit? path = some unit ∧ project = result := by
  unfold require ask Project.require
  cases found : project.unit? path <;> simp [found]

theorem apply_eq_ok_iff {path : Path} {edits : List Edit} {answer : Unit} :
    apply path edits project = .ok answer result ↔ project.apply path edits = .ok result := by
  unfold apply step
  cases applied : project.apply path edits <;> simp [applied]

end Update

end CreatorMigration
