import CreatorMigration.Text.Basic

/-! # Bounded calls

A combinator and a registration take at most `arityLimit` arguments. A longer list is cut into
consecutive stages of at most that many, and the call is written as several calls.

* `BoundedCall.arguments` gives back the arguments, each once and in order.
* `BoundedCall.render` chains the stages of a method and nests those of a bare function.
* `labelGroups` spreads the labels of a clause over registrations.
-/

namespace CreatorMigration

def arityLimit : Nat := 10

/-- Consecutive runs of `arityLimit` elements; the last run may be shorter, and none is empty. -/
def stagesOf {α : Type} : List α → List (List α)
  | [] => []
  | first :: rest => (first :: rest.take (arityLimit - 1)) :: stagesOf (rest.drop (arityLimit - 1))
termination_by list => list.length
decreasing_by simp only [List.length_drop, List.length_cons]; omega

theorem length_stagesOf_le {α : Type} (list : List α) : (stagesOf list).length ≤ list.length := by
  fun_induction stagesOf list with
  | case1 => simp
  | case2 first rest ih =>
    simp only [List.length_cons, List.length_drop] at *
    omega

theorem length_stagesOf_lt {α : Type} (list : List α) (long : 2 ≤ list.length) :
    (stagesOf list).length < list.length := by
  cases list with
  | nil => simp at long
  | cons first rest =>
    have bound := length_stagesOf_le (rest.drop (arityLimit - 1))
    rw [stagesOf]
    simp only [List.length_cons, List.length_drop, arityLimit] at *
    omega

/-! ## Rendering -/

/-- How the stages of a call are put together. -/
inductive CallForm where
  /-- `x.pipe(a).pipe(b)` -/
  | chained
  /-- `pipe(pipe(a), pipe(b))` -/
  | composed
deriving DecidableEq

/-- A callee with a dot is a method, whose calls can be chained. -/
def CallForm.ofCallee (callee : String) : CallForm :=
  if callee.toList.contains '.' then chained else composed

structure BoundedCall where
  callee : String
  form : CallForm
  stages : List (List String)

def renderCall (callee : String) (arguments : List String) : String :=
  callee ++ "(" ++ Text.join ", " arguments ++ ")"

/-- Nests the calls of a bare function until none has too many arguments. -/
def renderComposed (callee : String) (arguments : List String) : String :=
  if arguments.length ≤ arityLimit then renderCall callee arguments
  else renderComposed callee ((stagesOf arguments).map (renderCall callee))
termination_by arguments.length
decreasing_by
  rename_i long
  have shorter := length_stagesOf_lt arguments (by simp only [arityLimit] at long; omega)
  simpa using shorter

namespace BoundedCall

def ofArguments (callee : String) (arguments : List String) : BoundedCall :=
  { callee, form := CallForm.ofCallee callee, stages := stagesOf arguments }

/-- Whether staging makes more than one call. -/
def isSplit (call : BoundedCall) : Bool := decide (1 < call.stages.length)

def arguments (call : BoundedCall) : List String := call.stages.flatten

/-- The calls of a method behind the first one. -/
def renderChain (method : String) (stages : List (List String)) : String :=
  String.join (stages.map fun stage => "." ++ renderCall method stage)

def render (call : BoundedCall) : String :=
  match call.form with
  | .composed => renderComposed call.callee call.arguments
  | .chained =>
      match call.stages with
      | [] => renderCall call.callee []
      | first :: rest =>
          renderCall call.callee first ++ renderChain (Text.afterLast '.' call.callee) rest

end BoundedCall

/-! ## Labels -/

/-- Splits off `arityLimit` labels as long as the rest and one more label would not fit together. -/
def labelGroups (own : String) (preceding : List String) : List (List String) :=
  if arityLimit ≤ preceding.length then
    preceding.take arityLimit :: labelGroups own (preceding.drop arityLimit)
  else [own :: preceding]
termination_by preceding.length
decreasing_by
  rename_i long
  simp only [List.length_drop, arityLimit] at *
  omega

end CreatorMigration
