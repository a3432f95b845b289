import CreatorMigration.BoundedCall
import CreatorMigration.Proofs.Text.Parts
import Mathlib.Data.List.Basic

/-! # What bounded calls mean

A call of a combinator applies its arguments one after the other. `CallTree` is a call whose
arguments may be calls of the same callee, `CallTree.effect` is what it does to a value, and
`StagedCall` is a method called again on its own result. Both depend on nothing but the
arguments at the leaves (`CallTree.effect_eq`, `StagedCall.effect_eq`), so staging a call
keeps what it does.

* `exists_renderComposed`: the text of nested stages is that of a tree of bounded calls.
* `exists_renderChained`: the text of a chain is that of bounded calls of the method.
* `keepsCall_ofArguments`: both, for the bounded call of any callee and any arguments.
-/

namespace CreatorMigration

/-! ## Stages -/

theorem stagesOf_map {α β : Type} (change : α → β) (list : List α) :
    stagesOf (list.map change) = (stagesOf list).map (List.map change) := by
  fun_induction stagesOf list with
  | case1 => simp [stagesOf]
  | case2 first rest inductionHypothesis =>
    rw [List.map_cons, stagesOf, ← List.map_drop, inductionHypothesis, List.map_cons,
      List.map_cons, List.map_take]

theorem flatten_stagesOf {α : Type} (list : List α) : (stagesOf list).flatten = list := by
  fun_induction stagesOf list with
  | case1 => rfl
  | case2 first rest inductionHypothesis =>
    rw [List.flatten_cons, inductionHypothesis, List.cons_append, List.take_append_drop]

theorem stagesOf_eq_nil_iff {α : Type} {list : List α} : stagesOf list = [] ↔ list = [] := by
  cases list with
  | nil => simp [stagesOf]
  | cons first rest => simp [stagesOf]

theorem ne_nil_of_mem_stagesOf {α : Type} {list stage : List α}
    (member : stage ∈ stagesOf list) : stage ≠ [] := by
  fun_induction stagesOf list with
  | case1 => simp at member
  | case2 first rest inductionHypothesis =>
    rcases List.mem_cons.1 member with rfl | later
    · simp
    · exact inductionHypothesis later

theorem length_le_of_mem_stagesOf {α : Type} {list stage : List α}
    (member : stage ∈ stagesOf list) : stage.length ≤ arityLimit := by
  fun_induction stagesOf list with
  | case1 => simp at member
  | case2 first rest inductionHypothesis =>
    rcases List.mem_cons.1 member with rfl | later
    · simp only [List.length_cons, List.length_take, arityLimit]
      omega
    · exact inductionHypothesis later

/-- A stage with another one behind it is full. -/
theorem length_eq_of_mem_dropLast_stagesOf {α : Type} {list stage : List α}
    (member : stage ∈ (stagesOf list).dropLast) : stage.length = arityLimit := by
  fun_induction stagesOf list with
  | case1 => simp at member
  | case2 first rest inductionHypothesis =>
    have left : stagesOf (rest.drop (arityLimit - 1)) ≠ [] := by
      intro none
      rw [none] at member
      simp at member
    have long : rest.drop (arityLimit - 1) ≠ [] := fun short =>
      left (stagesOf_eq_nil_iff.2 short)
    rw [List.dropLast_cons_of_ne_nil left] at member
    rcases List.mem_cons.1 member with rfl | later
    · have more := List.length_pos_iff.2 long
      simp only [List.length_drop, arityLimit] at more
      simp only [List.length_cons, List.length_take, arityLimit]
      omega
    · exact inductionHypothesis later

/-! ## Nested calls -/

/-- A call whose arguments are texts or calls of the same callee. -/
inductive CallTree where
  | argument (text : String)
  | call (parts : List CallTree)

namespace CallTree

/-- What is written for the tree when every call in it is one of the callee. -/
def text (callee : String) : CallTree → String
  | argument text => text
  | call parts => renderCall callee (parts.map (text callee))

/-- The arguments that are no calls of the callee, from left to right. -/
def arguments : CallTree → List String
  | argument text => [text]
  | call parts => parts.flatMap arguments

/-- No call has more arguments than a combinator takes. -/
inductive IsBounded : CallTree → Prop where
  | argument (text : String) : IsBounded (argument text)
  | call {parts : List CallTree} (few : parts.length ≤ arityLimit)
      (below : ∀ part ∈ parts, IsBounded part) : IsBounded (call parts)

/-- What a call does to a value: its arguments are applied from left to right, where `meaning`
says what the argument of a text does. -/
def effect {Value : Type} (meaning : String → Value → Value) : CallTree → Value → Value
  | argument text, value => meaning text value
  | call parts, value => parts.foldl (fun reached part => effect meaning part reached) value

theorem text_call (callee : String) (parts : List CallTree) :
    (call parts).text callee = renderCall callee (parts.map (text callee)) := by
  rw [text]

theorem arguments_call (parts : List CallTree) :
    (call parts).arguments = parts.flatMap arguments := by
  rw [arguments]

theorem map_text_argument (callee : String) (texts : List String) :
    (texts.map argument).map (text callee) = texts := by
  rw [List.map_map]
  exact (List.map_congr_left fun written _ => by rw [Function.comp_apply, text, id_eq]).trans
    (List.map_id texts)

theorem flatMap_arguments_argument (texts : List String) :
    (texts.map argument).flatMap arguments = texts := by
  induction texts with
  | nil => rfl
  | cons first rest inductionHypothesis =>
    rw [List.map_cons, List.flatMap_cons, inductionHypothesis, arguments, List.singleton_append]

/-- A tree does what its arguments do one after the other, however its calls are nested. -/
theorem effect_eq {Value : Type} (meaning : String → Value → Value) (tree : CallTree)
    (value : Value) :
    tree.effect meaning value =
      tree.arguments.foldl (fun reached argument => meaning argument reached) value := by
  match tree with
  | .argument text => rw [effect, arguments, List.foldl_cons, List.foldl_nil]
  | .call parts =>
    rw [effect, arguments, List.foldl_flatMap]
    exact List.foldl_ext _ _ value fun reached part _ => effect_eq meaning part reached
termination_by tree

/-- The call of a callee with all the arguments at once. -/
def plain (texts : List String) : CallTree := call (texts.map argument)

theorem text_plain (callee : String) (texts : List String) :
    (plain texts).text callee = renderCall callee texts := by
  rw [plain, text_call, map_text_argument]

theorem arguments_plain (texts : List String) : (plain texts).arguments = texts := by
  rw [plain, arguments_call, flatMap_arguments_argument]

theorem effect_plain {Value : Type} (meaning : String → Value → Value) (texts : List String)
    (value : Value) :
    (plain texts).effect meaning value =
      texts.foldl (fun reached argument => meaning argument reached) value := by
  rw [effect_eq, arguments_plain]

end CallTree

/-- The parts of one stage after the other, each made a call, have the arguments of the parts. -/
theorem flatMap_arguments_stagesOf (parts : List CallTree) :
    ((stagesOf parts).map CallTree.call).flatMap CallTree.arguments =
      parts.flatMap CallTree.arguments := by
  calc ((stagesOf parts).map CallTree.call).flatMap CallTree.arguments
      = (stagesOf parts).flatMap (fun stage => stage.flatMap CallTree.arguments) := by
        rw [List.flatMap_map]
        exact List.flatMap_congr fun stage _ => CallTree.arguments_call stage
    _ = (stagesOf parts).flatten.flatMap CallTree.arguments := by
        rw [List.flatMap_def, List.flatMap_def, List.map_flatten, List.flatten_flatten,
          List.map_map]
        rfl
    _ = parts.flatMap CallTree.arguments := by rw [flatten_stagesOf]

/-- Nested stages are written as one call of bounded calls with the same arguments.
The induction follows `renderComposed`: a stage of texts of trees is the text of the tree
that calls them, so each round turns the list of trees into a shorter one. -/
theorem exists_renderComposed (callee : String) (parts : List CallTree)
    (bounded : ∀ part ∈ parts, part.IsBounded) :
    ∃ nested : List CallTree,
      renderComposed callee (parts.map (CallTree.text callee)) =
        (CallTree.call nested).text callee ∧
      (CallTree.call nested).IsBounded ∧
      (CallTree.call nested).arguments = parts.flatMap CallTree.arguments := by
  by_cases few : parts.length ≤ arityLimit
  · refine ⟨parts, ?_, .call few bounded, CallTree.arguments_call parts⟩
    rw [renderComposed, if_pos (by rwa [List.length_map]), CallTree.text_call]
  · have staged : (stagesOf (parts.map (CallTree.text callee))).map (renderCall callee) =
        ((stagesOf parts).map CallTree.call).map (CallTree.text callee) := by
      rw [stagesOf_map, List.map_map, List.map_map]
      exact List.map_congr_left fun stage _ => (CallTree.text_call callee stage).symm
    have stagesBounded : ∀ part ∈ (stagesOf parts).map CallTree.call, part.IsBounded := by
      intro part member
      obtain ⟨stage, stageMember, rfl⟩ := List.mem_map.1 member
      refine .call (length_le_of_mem_stagesOf stageMember) fun inner innerMember => ?_
      have listed : inner ∈ (stagesOf parts).flatten :=
        List.mem_flatten.2 ⟨stage, stageMember, innerMember⟩
      rw [flatten_stagesOf] at listed
      exact bounded inner listed
    -- more parts than one stage holds make fewer stages than parts, which ends the recursion
    have shorter : (stagesOf parts).length < parts.length :=
      length_stagesOf_lt parts (by simp only [arityLimit] at few; omega)
    obtain ⟨nested, written, nestedBounded, same⟩ :=
      exists_renderComposed callee ((stagesOf parts).map CallTree.call) stagesBounded
    refine ⟨nested, ?_, nestedBounded, same.trans (flatMap_arguments_stagesOf parts)⟩
    rw [renderComposed, if_neg (by rwa [List.length_map]), staged, written]
termination_by parts.length
decreasing_by rwa [List.length_map]

/-! ## Chained calls -/

/-- A method called on a receiver, and then again on each result. -/
structure ChainedCall where
  receiver : String
  method : String
  stages : List (List String)

namespace ChainedCall

def text (chain : ChainedCall) : String :=
  chain.receiver ++ BoundedCall.renderChain chain.method chain.stages

/-- What the chain does to the value of its receiver: one call after the other. -/
def effect {Value : Type} (meaning : String → Value → Value) (chain : ChainedCall)
    (value : Value) : Value :=
  chain.stages.foldl (fun reached stage => (CallTree.plain stage).effect meaning reached) value

theorem effect_eq {Value : Type} (meaning : String → Value → Value) (chain : ChainedCall)
    (value : Value) :
    chain.effect meaning value =
      chain.stages.flatten.foldl (fun reached argument => meaning argument reached) value := by
  rw [effect, List.foldl_flatten]
  exact List.foldl_ext _ _ value fun reached stage _ => CallTree.effect_plain meaning stage reached

end ChainedCall

theorem BoundedCall.renderChain_cons (method : String) (stage : List String)
    (rest : List (List String)) :
    BoundedCall.renderChain method (stage :: rest) =
      "." ++ renderCall method stage ++ BoundedCall.renderChain method rest := by
  rw [BoundedCall.renderChain, List.map_cons, String.join_cons]
  rfl

theorem renderCall_dotted (receiver method : String) (stage : List String) :
    renderCall (receiver ++ "." ++ method) stage =
      receiver ++ ("." ++ renderCall method stage) := by
  simp only [renderCall, String.append_assoc]

/-- The calls a method with a bounded number of arguments is made in; without an argument there
is one call. -/
def stagedCalls (arguments : List String) : List (List String) :=
  if arguments = [] then [[]] else stagesOf arguments

theorem flatten_stagedCalls (arguments : List String) :
    (stagedCalls arguments).flatten = arguments := by
  rw [stagedCalls]
  split
  · next none => rw [none]; rfl
  · exact flatten_stagesOf arguments

theorem length_le_of_mem_stagedCalls {arguments stage : List String}
    (member : stage ∈ stagedCalls arguments) : stage.length ≤ arityLimit := by
  rw [stagedCalls] at member
  split at member
  · rw [List.mem_singleton.1 member]
    exact Nat.zero_le _
  · exact length_le_of_mem_stagesOf member

theorem exists_renderChained {callee : String} (dotted : '.' ∈ callee.toList)
    (arguments : List String) :
    ∃ receiver method : String, callee = receiver ++ "." ++ method ∧ '.' ∉ method.toList ∧
      (BoundedCall.ofArguments callee arguments).render =
        (ChainedCall.mk receiver method (stagedCalls arguments)).text := by
  obtain ⟨receiver, method, rfl, undotted⟩ := Text.exists_dotted dotted
  have segment : Text.afterLast '.' (receiver ++ "." ++ method) = method := by
    rw [Text.afterLast_dotted, Text.afterLast_of_notMem undotted]
  have form : CallForm.ofCallee (receiver ++ "." ++ method) = .chained := by
    rw [CallForm.ofCallee, if_pos (List.contains_iff_mem.2 dotted)]
  refine ⟨receiver, method, rfl, undotted, ?_⟩
  simp only [BoundedCall.render, BoundedCall.ofArguments, form, ChainedCall.text]
  by_cases none : arguments = []
  · subst none
    rw [stagedCalls, if_pos rfl, BoundedCall.renderChain_cons, ← String.append_assoc,
      ← renderCall_dotted, stagesOf]
    exact String.append_empty.symm
  · rw [stagedCalls, if_neg none]
    cases stages : stagesOf arguments with
    | nil => exact absurd (stagesOf_eq_nil_iff.1 stages) none
    | cons first rest =>
      rw [BoundedCall.renderChain_cons, ← String.append_assoc, ← renderCall_dotted, segment]

/-! ## Bounded calls -/

/-- What a bounded call is written as, and that it does what the call with all arguments does. -/
inductive WritesCall (callee : String) (arguments : List String) : String → Prop where
  | composed (nested : List CallTree) (bare : '.' ∉ callee.toList)
      (bounded : (CallTree.call nested).IsBounded)
      (all : (CallTree.call nested).arguments = arguments)
      (same : ∀ (Value : Type) (meaning : String → Value → Value),
        (CallTree.call nested).effect meaning = (CallTree.plain arguments).effect meaning) :
      WritesCall callee arguments ((CallTree.call nested).text callee)
  | chained (chain : ChainedCall) (method : callee = chain.receiver ++ "." ++ chain.method)
      (last : '.' ∉ chain.method.toList)
      (bounded : ∀ stage ∈ chain.stages, stage.length ≤ arityLimit)
      (stages : chain.stages = stagedCalls arguments)
      (all : chain.stages.flatten = arguments)
      (same : ∀ (Value : Type) (meaning : String → Value → Value),
        chain.effect meaning = (CallTree.plain arguments).effect meaning) :
      WritesCall callee arguments chain.text

theorem writesCall (callee : String) (arguments : List String) :
    WritesCall callee arguments (BoundedCall.ofArguments callee arguments).render := by
  by_cases dotted : '.' ∈ callee.toList
  · obtain ⟨receiver, method, split, last, written⟩ := exists_renderChained dotted arguments
    rw [written]
    refine .chained _ split last (fun stage => length_le_of_mem_stagedCalls) rfl
      (flatten_stagedCalls arguments) fun Value meaning => funext fun value => ?_
    rw [ChainedCall.effect_eq, flatten_stagedCalls, CallTree.effect_plain]
  · have form : CallForm.ofCallee callee = .composed := by
      rw [CallForm.ofCallee, if_neg (by rwa [List.contains_iff_mem])]
    have texts : ∀ part ∈ arguments.map CallTree.argument, part.IsBounded := by
      intro part member
      obtain ⟨text, -, rfl⟩ := List.mem_map.1 member
      exact .argument text
    obtain ⟨nested, written, bounded, all⟩ := exists_renderComposed callee _ texts
    rw [CallTree.map_text_argument] at written
    rw [CallTree.flatMap_arguments_argument] at all
    have rendered : (BoundedCall.ofArguments callee arguments).render =
        (CallTree.call nested).text callee := by
      simp only [BoundedCall.render, BoundedCall.ofArguments, form, BoundedCall.arguments,
        flatten_stagesOf, written]
    rw [rendered]
    refine .composed nested dotted bounded all fun Value meaning => funext fun value => ?_
    rw [CallTree.effect_eq, all, CallTree.effect_plain]

/-- Staging a call loses and moves no argument, and what is written does what the call did. -/
structure KeepsCall (call : BoundedCall) (arguments : List String) : Prop where
  same : call.arguments = arguments
  filled : ∀ stage ∈ call.stages, stage ≠ []
  bounded : ∀ stage ∈ call.stages, stage.length ≤ arityLimit
  full : ∀ stage ∈ call.stages.dropLast, stage.length = arityLimit
  written : WritesCall call.callee arguments call.render

theorem keepsCall_ofArguments (callee : String) (arguments : List String) :
    KeepsCall (BoundedCall.ofArguments callee arguments) arguments where
  same := flatten_stagesOf arguments
  filled _ member := ne_nil_of_mem_stagesOf member
  bounded _ member := length_le_of_mem_stagesOf member
  full _ member := length_eq_of_mem_dropLast_stagesOf member
  written := writesCall callee arguments

end CreatorMigration
