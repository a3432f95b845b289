import CreatorMigration.Proofs.BoundedCall
import CreatorMigration.Proofs.Tree.Lexemes

/-! # The form of a bounded call

The form of a staged call is chosen by the text of the callee, and a chain repeats what stands
behind its last dot. `Token.AccessesMethod` is what the callee accesses at its outermost level, read
off its lexemes.

* `isBalanced_renderCall` and `CallTree.isBalanced_text`: calls of balanced texts are balanced.
* `exists_reads_renderChain`: so are the repeated calls of a method.
* `stagesByShape_iff`: the form follows the callee's shape exactly when the callee has no dot or the
  last one stands in front of the method that it accesses.
-/

namespace CreatorMigration

open Token

/-- The scanner gets to the end of the text with all brackets and literals closed. -/
def IsBalanced (text : String) : Prop := ∃ lexemes, ReadsAs text lexemes

namespace Token

/-- Outside of all brackets, the lexemes end in the access of a method of an object. Behind `new`
and `import` stands no method. -/
def AccessesMethod (lexemes : List Lexeme) (method : Lexeme) : Prop :=
  ∃ object dot, lexemes = object ++ [dot, method] ∧
    object ∉ [[], [⟨.word, "new"⟩], [⟨.word, "import"⟩]] ∧
    dot ∈ [(⟨.punctuation, "."⟩ : Lexeme), ⟨.punctuation, "?."⟩] ∧
    method.kind ∈ [TokenKind.word, .privateName]

theorem AccessesMethod.unique {lexemes : List Lexeme} {method other : Lexeme}
    (accesses : AccessesMethod lexemes method) (accessesOther : AccessesMethod lexemes other) :
    method = other := by
  obtain ⟨object, dot, rfl, -⟩ := accesses
  obtain ⟨objectThen, dotThen, same, -⟩ := accessesOther
  have last := congrArg List.getLast? same
  simpa using last

/-- Nothing is read that is not in the text. -/
theorem Reads.isInfix {stage final : Stage} {chars rest : List Char} {lexemes : List Lexeme}
    (reads : Reads stage chars lexemes final rest) {lexeme : Lexeme} (member : lexeme ∈ lexemes) :
    lexeme.text.toList <:+: chars := by
  induction reads with
  | done => cases member
  | @token stage final chars start taken left rest kind next lexemes skips took others
      inductionHypothesis =>
    have split := (takes_of_take took).2
    have behind : start <:+ chars := skips.suffix
    rcases List.mem_cons.1 member with rfl | later
    · rw [String.toList_ofList]
      exact (List.IsPrefix.isInfix ⟨left, split⟩).trans behind.isInfix
    · have inStart : left <:+ start := ⟨taken, split⟩
      exact (inductionHypothesis later).trans (inStart.trans behind).isInfix

theorem dot_mem_of_accessesMethod {callee : String} {lexemes : List Lexeme} {method : Lexeme}
    (reads : ReadsAs callee lexemes) (accesses : AccessesMethod lexemes method) :
    '.' ∈ callee.toList := by
  obtain ⟨memory, left, reads, -⟩ := reads
  obtain ⟨object, dot, rfl, -, isDot, -⟩ := accesses
  have inText := reads.isInfix (List.mem_append_right object (List.mem_cons_self ..))
  have inDot : ∀ mark ∈ [(⟨.punctuation, "."⟩ : Lexeme), ⟨.punctuation, "?."⟩],
      '.' ∈ mark.text.toList := by decide
  exact inText.subset (inDot dot isDot)

/-! ## Names -/

theorem mem_digits {c : Char} (digit : c.isDigit = true) : c ∈ "0123456789".toList := by
  have bounds : 48 ≤ c.toNat ∧ c.toNat ≤ 57 := by
    rw [Char.isDigit, Bool.and_eq_true, decide_eq_true_iff, decide_eq_true_iff] at digit
    exact digit
  have digits : ∀ code < 58, 48 ≤ code → Char.ofNat code ∈ "0123456789".toList := by decide
  rw [← Char.ofNat_toNat c]
  exact digits _ (Nat.lt_succ_of_le bounds.2) bounds.1

/-- What starts with a digit is a number. -/
theorem kind_of_takeToken {memory next : Memory} {c : Char} {chars taken left : List Char}
    {kind : TokenKind} (digit : c.isDigit = true)
    (took : takeToken memory (c :: chars) = some (kind, taken, left, next)) : kind = .number := by
  have noName : isNameStart c = false := by rw [isNameStart, digit, Bool.not_true, Bool.and_false]
  unfold takeToken at took
  dsimp only at took
  split at took
  case h_1 same => cases same
  case h_6 same =>
    cases same
    rw [noName, digit] at took
    cases took
    rfl
  all_goals
    next same =>
      cases same
      exact absurd digit (by decide)

theorem isDigit_of_readsAs_name {name : String} {method : Lexeme} (reads : ReadsAs name [method])
    (kind : method.kind ∈ [TokenKind.word, .privateName]) :
    ∀ c ∈ name.toList.head?, c.isDigit = false := by
  intro c isFirst
  by_contra digit
  rw [Bool.not_eq_false] at digit
  obtain ⟨rest, chars⟩ : ∃ rest, name.toList = c :: rest :=
    ⟨_, (List.cons_head?_tail isFirst).symm⟩
  obtain ⟨memory, left, reads, -⟩ := reads
  rw [chars] at reads
  -- a digit opens neither a gap nor a comment, so the lexeme would start at it and be a number
  have plain : ("0123456789".toList.all fun d => !isSpace d && d != '/') = true := by decide
  obtain ⟨noSpace, noSlash⟩ : isSpace c = false ∧ c ≠ '/' := by
    simpa using List.all_eq_true.1 plain c (mem_digits digit)
  cases reads with
  | @token _ _ _ start taken left rest kindThen next lexemes skips took others =>
    obtain ⟨gap, offset, skipped⟩ := Stage.Skips.exists_skipGap skips (Nat.lt_succ_self _) false 0
    rw [skipGap_token (Bool.eq_false_iff.1 noSpace) fun slash => absurd slash noSlash] at skipped
    cases skipped
    have number : kindThen = .number := kind_of_takeToken digit took
    rw [number] at kind
    simp at kind

end Token

/-! ## Balanced calls -/

theorem exists_lists_of_isBalanced {texts : List String}
    (balanced : ∀ text ∈ texts, IsBalanced text) : ∃ lists, List.Forall₂ ReadsAs texts lists := by
  induction texts with
  | nil => exact ⟨[], .nil⟩
  | cons first rest inductionHypothesis =>
    rw [List.forall_mem_cons] at balanced
    obtain ⟨lexemes, reads⟩ := balanced.1
    obtain ⟨lists, others⟩ := inductionHypothesis balanced.2
    exact ⟨lexemes :: lists, .cons reads others⟩

theorem isBalanced_renderCall {callee : String} {arguments : List String}
    (calleeBalanced : IsBalanced callee) (balanced : ∀ argument ∈ arguments, IsBalanced argument) :
    IsBalanced (renderCall callee arguments) := by
  obtain ⟨lexemes, reads⟩ := calleeBalanced
  obtain ⟨lists, readArguments⟩ := exists_lists_of_isBalanced balanced
  exact ⟨_, readsAs_renderCall reads readArguments⟩

theorem CallTree.isBalanced_text {callee : String} (calleeBalanced : IsBalanced callee)
    (tree : CallTree) (balanced : ∀ argument ∈ tree.arguments, IsBalanced argument) :
    IsBalanced (tree.text callee) := by
  match tree with
  | .argument written =>
    rw [text]
    exact balanced written (by rw [arguments]; exact List.mem_singleton.2 rfl)
  | .call parts =>
    rw [text_call]
    refine isBalanced_renderCall calleeBalanced fun written member => ?_
    obtain ⟨part, partMember, rfl⟩ := List.mem_map.1 member
    refine isBalanced_text calleeBalanced part fun argument listed => balanced argument ?_
    rw [arguments_call]
    exact List.mem_flatMap.2 ⟨part, partMember, listed⟩
termination_by tree

/-- Behind a call, the calls of a method on its result are read one after the other. -/
theorem exists_reads_renderChain {name : String} {method : Lexeme} (reads : ReadsAs name [method])
    (plain : ∀ c ∈ name.toList.head?, c.isDigit = false ∧ c ≠ '.') {stages : List (List String)}
    (balanced : ∀ stage ∈ stages, ∀ argument ∈ stage, IsBalanced argument) (memory : Memory) :
    ∃ lexemes next, next.openings = memory.openings ∧
      Reads ⟨memory, false⟩ (BoundedCall.renderChain name stages).toList lexemes
        ⟨next, false⟩ [] := by
  induction stages generalizing memory with
  | nil => exact ⟨[], memory, rfl, .done _ _⟩
  | cons stage rest inductionHypothesis =>
    rw [List.forall_mem_cons] at balanced
    obtain ⟨lists, readArguments⟩ := exists_lists_of_isBalanced balanced.1
    obtain ⟨head, call⟩ := reads_call reads readArguments memory.openings
      (BoundedCall.renderChain name rest).toList
    obtain ⟨lexemes, next, same, others⟩ :=
      inductionHypothesis balanced.2 ⟨memory.openings, head, false⟩
    have written : (BoundedCall.renderChain name (stage :: rest)).toList =
        '.' :: ((renderCall name stage).toList ++ (BoundedCall.renderChain name rest).toList) := by
      rw [BoundedCall.renderChain_cons, String.toList_append, String.toList_append]
      rfl
    -- with a digit or a dot behind it the dot would be read as part of something longer
    have opens : ∀ c ∈ ((renderCall name stage).toList ++
        (BoundedCall.renderChain name rest).toList).head?, c.isDigit = false ∧ c ≠ '.' := by
      intro c isFirst
      cases chars : name.toList with
      | nil =>
        have bracket : '(' = c := by simpa [renderCall, chars] using isFirst
        rw [← bracket]
        decide
      | cons first others =>
        have same : first = c := by simpa [renderCall, chars] using isFirst
        rw [← same]
        exact plain first (by rw [chars]; rfl)
    rw [written]
    exact ⟨_, next, same, (reads_dot memory opens).trans (call.trans others)⟩

/-! ## Callees -/

/-- What staging promises of a callee that reads as these lexemes: what is written is balanced, a
method is called again on each result and a bare function is nested, and what is called again is
exactly the method. -/
structure StagesByShape (callee : String) (lexemes : List Lexeme) (arguments : List String) :
    Prop where
  balanced : IsBalanced (BoundedCall.ofArguments callee arguments).render
  chained_iff : (BoundedCall.ofArguments callee arguments).form = .chained ↔
    ∃ method, AccessesMethod lexemes method
  repeats : ∀ method, AccessesMethod lexemes method →
    ReadsAs (Text.afterLast '.' callee) [method] ∧
      ∃ receiver, callee = receiver ++ "." ++ Text.afterLast '.' callee ∧
        (BoundedCall.ofArguments callee arguments).render =
          (ChainedCall.mk receiver (Text.afterLast '.' callee) (stagedCalls arguments)).text

theorem form_ofArguments_eq_chained_iff {callee : String} {arguments : List String} :
    (BoundedCall.ofArguments callee arguments).form = .chained ↔ '.' ∈ callee.toList := by
  rw [BoundedCall.ofArguments, CallForm.ofCallee, ← List.contains_iff_mem]
  split <;> simp_all

theorem mem_of_mem_stagesOf {arguments stage : List String} {argument : String}
    (member : stage ∈ stagesOf arguments) (inStage : argument ∈ stage) : argument ∈ arguments := by
  rw [← flatten_stagesOf arguments]
  exact List.mem_flatten.2 ⟨stage, member, inStage⟩

theorem isBalanced_render_of_bare {callee : String} {arguments : List String}
    (bare : '.' ∉ callee.toList) (calleeBalanced : IsBalanced callee)
    (balanced : ∀ argument ∈ arguments, IsBalanced argument) :
    IsBalanced (BoundedCall.ofArguments callee arguments).render := by
  generalize rendered : (BoundedCall.ofArguments callee arguments).render = text
  have written := writesCall callee arguments
  rw [rendered] at written
  cases written with
  | composed nested _ _ all _ => exact CallTree.isBalanced_text calleeBalanced _ (all ▸ balanced)
  | chained chain isMethod =>
    refine absurd ?_ bare
    rw [isMethod]
    simp

theorem isBalanced_render_of_method {callee : String} {arguments : List String} {method : Lexeme}
    (dotted : '.' ∈ callee.toList) (calleeBalanced : IsBalanced callee)
    (reads : ReadsAs (Text.afterLast '.' callee) [method])
    (kind : method.kind ∈ [TokenKind.word, .privateName])
    (balanced : ∀ argument ∈ arguments, IsBalanced argument) :
    IsBalanced (BoundedCall.ofArguments callee arguments).render := by
  have form : CallForm.ofCallee callee = .chained :=
    (@form_ofArguments_eq_chained_iff callee arguments).2 dotted
  have undotted : '.' ∉ (Text.afterLast '.' callee).toList := by
    obtain ⟨receiver, name, split, absent⟩ := Text.exists_dotted dotted
    rwa [split, Text.afterLast_dotted, Text.afterLast_of_notMem absent]
  have plain : ∀ c ∈ (Text.afterLast '.' callee).toList.head?, c.isDigit = false ∧ c ≠ '.' := by
    intro c isFirst
    refine ⟨isDigit_of_readsAs_name reads kind c isFirst, ?_⟩
    rintro rfl
    exact undotted (List.mem_of_head? isFirst)
  have each : ∀ stage ∈ stagesOf arguments, ∀ argument ∈ stage, IsBalanced argument :=
    fun stage member argument inStage => balanced argument (mem_of_mem_stagesOf member inStage)
  simp only [BoundedCall.render, BoundedCall.ofArguments, form]
  cases stages : stagesOf arguments with
  | nil => exact isBalanced_renderCall calleeBalanced (by simp)
  | cons first rest =>
    rw [stages, List.forall_mem_cons] at each
    obtain ⟨lexemes, readsCallee⟩ := calleeBalanced
    obtain ⟨lists, readArguments⟩ := exists_lists_of_isBalanced each.1
    -- the first stage calls the callee, the others call its method on what was returned
    obtain ⟨head, call⟩ := reads_call readsCallee readArguments []
      (BoundedCall.renderChain (Text.afterLast '.' callee) rest).toList
    obtain ⟨more, next, closed, chain⟩ :=
      exists_reads_renderChain reads plain each.2 ⟨[], head, false⟩
    refine ⟨callLexemes lexemes lists ++ more, next, [], ?_, closed, by simp⟩
    rw [String.toList_append]
    exact call.trans chain

/-- The form of a staged call follows the shape of its callee exactly when the callee has no dot, or
the last one stands in front of the method that it accesses. -/
theorem stagesByShape_iff {callee : String} {lexemes : List Lexeme} {arguments : List String}
    (reads : ReadsAs callee lexemes) (balanced : ∀ argument ∈ arguments, IsBalanced argument) :
    StagesByShape callee lexemes arguments ↔
      ('.' ∈ callee.toList → ∃ method, AccessesMethod lexemes method ∧
        ReadsAs (Text.afterLast '.' callee) [method]) := by
  constructor
  · intro stages dotted
    obtain ⟨method, accesses⟩ := stages.chained_iff.1 (form_ofArguments_eq_chained_iff.2 dotted)
    exact ⟨method, accesses, (stages.repeats method accesses).1⟩
  · intro ends
    refine ⟨?_, ?_, ?_⟩
    · by_cases dotted : '.' ∈ callee.toList
      · obtain ⟨method, ⟨_, _, _, _, _, kind⟩, readsMethod⟩ := ends dotted
        exact isBalanced_render_of_method dotted ⟨lexemes, reads⟩ readsMethod kind balanced
      · exact isBalanced_render_of_bare dotted ⟨lexemes, reads⟩ balanced
    · rw [form_ofArguments_eq_chained_iff]
      exact ⟨fun dotted => (ends dotted).imp fun _ method => method.1,
        fun ⟨method, accesses⟩ => dot_mem_of_accessesMethod reads accesses⟩
    · intro method accesses
      have dotted := dot_mem_of_accessesMethod reads accesses
      obtain ⟨other, accessesOther, readsMethod⟩ := ends dotted
      obtain ⟨receiver, name, split, undotted, written⟩ := exists_renderChained dotted arguments
      have last : Text.afterLast '.' callee = name := by
        rw [split, Text.afterLast_dotted, Text.afterLast_of_notMem undotted]
      refine ⟨accesses.unique accessesOther ▸ readsMethod, receiver, ?_, ?_⟩
      · rw [last]
        exact split
      · rw [last]
        exact written

def elevenOperators : List String :=
  ["a", "b", "c", "d", "e", "f", "g", "h", "i", "j", "k"]

theorem readsAs_elevenOperators :
    ∀ argument ∈ elevenOperators, ReadsAs argument [⟨.word, argument⟩] := by
  decide +kernel

/-- The method of a chain of accesses is called again. -/
theorem stagesByShape_iff_pipeOfActions :
    StagesByShape "this.actions$.pipe"
      [⟨.word, "this"⟩, markLexeme '.', ⟨.word, "actions$"⟩, markLexeme '.', ⟨.word, "pipe"⟩]
      elevenOperators := by
  refine (stagesByShape_iff (by decide +kernel) ?_).2 fun _ => ⟨⟨.word, "pipe"⟩, ?_, ?_⟩
  · exact fun argument member => ⟨_, readsAs_elevenOperators argument member⟩
  · exact ⟨[⟨.word, "this"⟩, markLexeme '.', ⟨.word, "actions$"⟩], markLexeme '.', rfl, by decide,
      by decide, by decide⟩
  · decide +kernel

/-- The callee `a.b(c.d)` is the result of a call and no method, yet what stands behind its last dot
is called again, bracket included. -/
theorem not_stagesByShape_accessInArgument :
    ∃ lexemes, ReadsAs "a.b(c.d)" lexemes ∧ (∀ argument ∈ elevenOperators, IsBalanced argument) ∧
      ¬ StagesByShape "a.b(c.d)" lexemes elevenOperators := by
  refine ⟨[⟨.word, "a"⟩, markLexeme '.', ⟨.word, "b"⟩, markLexeme '(', ⟨.word, "c"⟩, markLexeme '.',
    ⟨.word, "d"⟩, markLexeme ')'], by decide +kernel, ?_, ?_⟩
  · exact fun argument member => ⟨_, readsAs_elevenOperators argument member⟩
  · intro stages
    obtain ⟨method, object, dot, same, _, _, kind⟩ :=
      stages.chained_iff.1 (form_ofArguments_eq_chained_iff.2 (by decide))
    have last : markLexeme ')' = method := by simpa using congrArg List.getLast? same
    rw [← last] at kind
    exact absurd kind (by decide)

end CreatorMigration
