import CreatorMigration.BoundedCall
import CreatorMigration.Proofs.Tree.Continuation

/-! # Lexemes

What the scanner makes of a text that is put into another one.

* `Token.Reads` is a run of the scanner with all characters in sight, one token after the other.
* `Token.ReadsAs` says what a text reads as by itself, `Token.lexemes?_eq_some_iff` that this is
  what the scanner makes of it, and `Token.Reads.append` that it stays so in front of more.
-/

namespace CreatorMigration

/-! ## Lexemes -/

/-- A token without its place in a text. -/
structure Lexeme where
  kind : TokenKind
  text : String
deriving DecidableEq

namespace Token

def lexeme (token : Token) : Lexeme := ⟨token.kind, token.text⟩

/-- Where the scanner is between two tokens. -/
structure Stage where
  memory : Memory
  inTemplate : Bool

namespace Stage

/-- The start of a text. -/
def fresh : Stage := ⟨⟨[], true, false⟩, false⟩

def inside (stage : Stage) (around : List Opening) : Stage :=
  { stage with memory := stage.memory.inside around }

def take (stage : Stage) (chars : List Char) :
    Option (TokenKind × List Char × List Char × Memory) :=
  if stage.inTemplate then takeTemplateToken stage.memory chars else takeToken stage.memory chars

/-- What stands in front of the next token is skipped, which is nothing in a template. -/
inductive Skips : Bool → List Char → List Char → Prop where
  | template (chars : List Char) : Skips true chars chars
  | gap {fuel offset : Nat} {comments : List Comment} {lineBreak : Bool} {gap : Gap}
      {chars : List Char} {start : Position}
      (skipped : skipGap fuel comments lineBreak ⟨offset, chars⟩ = some (gap, start)) :
      Skips false chars start.chars

end Stage

/-- The scanner reads the lexemes off the front of some characters, with all characters in sight. -/
inductive Reads : Stage → List Char → List Lexeme → Stage → List Char → Prop where
  | done (stage : Stage) (chars : List Char) : Reads stage chars [] stage chars
  | token {stage final : Stage} {chars start taken left rest : List Char} {kind : TokenKind}
      {next : Memory} {lexemes : List Lexeme} (skips : Stage.Skips stage.inTemplate chars start)
      (took : stage.take start = some (kind, taken, left, next))
      (others : Reads ⟨next, entersTemplate stage.inTemplate kind⟩ left lexemes final rest) :
      Reads stage chars (⟨kind, String.ofList taken⟩ :: lexemes) final rest

theorem Reads.trans {stage middle final : Stage} {chars between rest : List Char}
    {lexemes more : List Lexeme} (front : Reads stage chars lexemes middle between)
    (back : Reads middle between more final rest) :
    Reads stage chars (lexemes ++ more) final rest := by
  induction front with
  | done => exact back
  | token skips took _ inductionHypothesis => exact .token skips took (inductionHypothesis back)

theorem takes_of_take {stage : Stage} {kind : TokenKind} {chars taken left : List Char}
    {next : Memory} (took : stage.take chars = some (kind, taken, left, next)) :
    taken ≠ [] ∧ taken ++ left = chars := by
  unfold Stage.take at took
  split at took
  · exact takes_of_takeTemplateToken took
  · exact takes_of_takeToken took

theorem Stage.Skips.append {inTemplate : Bool} {chars start back : List Char}
    (skips : Skips inTemplate chars start) (nonempty : start ≠ []) (ends : EndsTokens back) :
    Skips inTemplate (chars ++ back) (start ++ back) := by
  cases skips with
  | template => exact .template _
  | @gap fuel offset comments lineBreak gap chars start skipped =>
    obtain ⟨gapThen, offsetThen, skippedThen⟩ := exists_skipGap_append skipped ends (.inl nonempty)
      [] false 0 (Nat.lt_succ_self _)
    exact .gap skippedThen

/-- A stage of plain text in a template goes on, so that no token of it is left out. -/
theorem Reads.nonempty_of_template {stage final : Stage} {chars rest : List Char}
    {lexemes : List Lexeme} (reads : Reads stage chars lexemes final rest)
    (inside : stage.inTemplate = true) (outside : final.inTemplate = false) : chars ≠ [] := by
  cases reads with
  | done =>
    rw [inside] at outside
    cases outside
  | token skips took _ =>
    rintro rfl
    rw [inside] at skips
    cases skips
    obtain ⟨nonempty, split⟩ := takes_of_take took
    exact nonempty (List.append_eq_nil_iff.1 split).1

/-- What is read of a piece is read of it in front of more and inside of more brackets. -/
theorem Reads.append {stage final : Stage} {chars rest back : List Char} {lexemes : List Lexeme}
    (reads : Reads stage chars lexemes final rest) (outside : final.inTemplate = false)
    (ends : EndsTokens back) (around : List Opening) :
    Reads (stage.inside around) (chars ++ back) lexemes (final.inside around) (rest ++ back) := by
  induction reads with
  | done => exact .done _ _
  | @token stage final chars start taken left rest kind next lexemes skips took others
      inductionHypothesis =>
    obtain ⟨nonempty, split⟩ := takes_of_take took
    have startNonempty : start ≠ [] := by
      rintro rfl
      exact nonempty (List.append_eq_nil_iff.1 split).1
    refine .token (skips.append startNonempty ends) ?_ (inductionHypothesis outside)
    unfold Stage.take at took ⊢
    change (if stage.inTemplate = true then _ else _) = _
    split at took
    · next inTemplate =>
      rw [if_pos inTemplate]
      refine takeTemplateToken_append_back took ?_ back around
      rintro rfl
      exact others.nonempty_of_template inTemplate outside
    · next inTemplate =>
      rw [if_neg inTemplate]
      exact takeToken_append_back took ends around

/-! ## Texts -/

/-- The scanner reads a text as these lexemes, with all of its brackets closed and nothing but
blanks behind the last lexeme, as a text of a node is. -/
def ReadsAs (text : String) (lexemes : List Lexeme) : Prop :=
  ∃ memory left, Reads .fresh text.toList lexemes ⟨memory, false⟩ left ∧ memory.openings = [] ∧
    ∀ c ∈ left, isSpace c = true

theorem suffix_of_skipGap {fuel : Nat} {comments : List Comment} {lineBreak : Bool} {gap : Gap}
    {position start : Position}
    (skipped : skipGap fuel comments lineBreak position = some (gap, start)) :
    start.chars <:+ position.chars := by
  fun_induction skipGap fuel comments lineBreak position with
  | case1 => cases skipped
  | case2 fuel comments lineBreak position rest opened taken left cut after inductionHypothesis =>
    exact (inductionHypothesis skipped).trans ⟨taken, append_of_span cut⟩
  | case3 fuel comments lineBreak position rest opened inductionHypothesis =>
    obtain ⟨⟨taken, left⟩, tookBody, continued⟩ := Option.bind_eq_some_iff.1 skipped
    refine (inductionHypothesis taken left continued).trans ⟨'/' :: '*' :: taken, ?_⟩
    rw [opened, List.cons_append, List.cons_append]
    exact congrArg _ (congrArg _ (append_of_takeBlockComment tookBody))
  | case4 fuel comments lineBreak position c rest _ _ opened space taken left cut
      inductionHypothesis =>
    exact (inductionHypothesis skipped).trans ⟨taken, append_of_span cut⟩
  | case5 =>
    cases skipped
    exact List.suffix_rfl
  | case6 =>
    cases skipped
    exact List.suffix_rfl

/-- Comments are only added, so none are where none are told of. -/
theorem spaces_of_skipGap {fuel : Nat} {comments : List Comment} {lineBreak : Bool} {gap : Gap}
    {position start : Position}
    (skipped : skipGap fuel comments lineBreak position = some (gap, start)) :
    comments.length ≤ gap.comments.length ∧
      (gap.comments.length = comments.length → start.chars = [] →
        ∀ c ∈ position.chars, isSpace c = true) := by
  fun_induction skipGap fuel comments lineBreak position with
  | case1 => cases skipped
  | case2 fuel comments lineBreak position rest opened taken left cut after inductionHypothesis =>
    have longer := (inductionHypothesis skipped).1
    rw [List.length_append, List.length_singleton] at longer
    exact ⟨by omega, by omega⟩
  | case3 fuel comments lineBreak position rest opened inductionHypothesis =>
    obtain ⟨⟨taken, left⟩, tookBody, continued⟩ := Option.bind_eq_some_iff.1 skipped
    have longer := (inductionHypothesis taken left continued).1
    rw [List.length_append, List.length_singleton] at longer
    exact ⟨by omega, by omega⟩
  | case4 fuel comments lineBreak position c rest _ _ opened space taken left cut
      inductionHypothesis =>
    refine (inductionHypothesis skipped).imp_right fun spaces none ended c member => ?_
    rw [← append_of_span cut, List.mem_append] at member
    rw [List.span_eq_takeWhile_dropWhile] at cut
    obtain ⟨rfl, rfl⟩ := Prod.mk.inj cut
    exact member.elim List.mem_takeWhile_imp (spaces none ended c)
  | case5 fuel comments lineBreak position c rest _ _ opened =>
    cases skipped
    exact ⟨Nat.le_refl _, fun _ ended => absurd ended (by simp [opened])⟩
  | case6 fuel comments lineBreak position ended =>
    cases skipped
    exact ⟨Nat.le_refl _, fun _ _ => by simp [ended]⟩

theorem exists_reads_of_scanFrom {fuel : Nat} {memory : Memory} {inTemplate : Bool}
    {position : Position} {tokens : List Token}
    (scanned : scanFrom fuel memory inTemplate position = some tokens) :
    ∃ last left, tokens ≠ [] ∧
      Reads ⟨memory, inTemplate⟩ position.chars (tokens.dropLast.map lexeme) ⟨last, false⟩ left ∧
      last.openings = [] ∧
      ((∀ token ∈ tokens.getLast?, token.comments = []) → ∀ c ∈ left, isSpace c = true) := by
  induction fuel generalizing memory inTemplate position tokens with
  | zero => cases scanned
  | succ fuel inductionHypothesis =>
    obtain ⟨gap, start, skips, read⟩ := scanFrom_succ_cases scanned
    rcases read with ⟨rfl, closed, ended, rfl⟩ |
      ⟨kind, taken, left, next, rest, took, _, _, scannedRest, rfl⟩
    · obtain ⟨_, skipped⟩ := skips.resolve_left fun inTemplate => Bool.false_ne_true inTemplate.1
      refine ⟨memory, position.chars, List.cons_ne_nil _ _, .done _ _, closed, fun none => ?_⟩
      have noComments : gap.comments = [] := none _ rfl
      exact (spaces_of_skipGap skipped).2 (by rw [noComments]) ended
    · have inFront : Stage.Skips inTemplate position.chars start.chars := by
        rcases skips with ⟨rfl, _, rfl⟩ | ⟨rfl, skipped⟩
        · exact .template _
        · exact .gap skipped
      obtain ⟨last, behind, nonempty, reads, closed, spaces⟩ := inductionHypothesis scannedRest
      refine ⟨last, behind, List.cons_ne_nil _ _, ?_, closed, fun none => spaces ?_⟩
      · rw [List.dropLast_cons_of_ne_nil nonempty]
        exact .token inFront took reads
      · rwa [List.getLast?_cons_of_ne_nil nonempty] at none

/-- The lexemes that the scanner makes of a text with no comment behind the last of them. -/
def lexemes? (text : String) : Option (List Lexeme) :=
  (scanFrom (text.toList.length + 1) ⟨[], true, false⟩ false ⟨0, text.toList⟩).bind fun tokens =>
    if tokens.getLast?.all (·.comments.isEmpty) then some (tokens.dropLast.map lexeme) else none

theorem readsAs_of_lexemes? {text : String} {lexemes : List Lexeme}
    (scanned : lexemes? text = some lexemes) : ReadsAs text lexemes := by
  obtain ⟨tokens, tokensScanned, checked⟩ := Option.bind_eq_some_iff.1 scanned
  split at checked
  · next noComments =>
    cases checked
    obtain ⟨last, left, _, reads, closed, spaces⟩ := exists_reads_of_scanFrom tokensScanned
    refine ⟨last, left, reads, closed, spaces fun token isLast => ?_⟩
    rw [Option.all_eq_true] at noComments
    exact List.isEmpty_iff.1 (noComments token isLast)
  · cases checked

theorem skipGap_blanks {chars : List Char} (spaces : ∀ c ∈ chars, isSpace c = true) {fuel : Nat}
    (enough : chars.length < fuel) (comments : List Comment) (lineBreak : Bool) (offset : Nat) :
    ∃ lineBreakThen offsetThen, skipGap fuel comments lineBreak ⟨offset, chars⟩ =
      some (⟨comments, lineBreakThen⟩, ⟨offsetThen, []⟩) := by
  match fuel, chars with
  | fuel + 1, [] => exact ⟨lineBreak, offset, rfl⟩
  | fuel + 2, c :: rest =>
    have cut : (c :: rest).span isSpace = (c :: rest, []) := by
      rw [List.span_eq_takeWhile_dropWhile, List.takeWhile_eq_self_iff.2 spaces,
        List.dropWhile_eq_nil_iff.2 spaces]
    rw [skipGap_space (spaces c (List.mem_cons_self ..)) cut]
    exact ⟨_, _, rfl⟩

theorem Stage.Skips.exists_skipGap {chars start : List Char} (skips : Skips false chars start)
    {fuel : Nat} (enough : chars.length < fuel) (lineBreak : Bool) (offset : Nat) :
    ∃ gap offsetThen,
      skipGap fuel [] lineBreak ⟨offset, chars⟩ = some (gap, ⟨offsetThen, start⟩) := by
  cases skips with
  | gap skipped =>
    have nothing : EndsTokens [] := by simp [EndsTokens]
    have skippedThen := exists_skipGap_append skipped nothing (.inr rfl) [] lineBreak offset enough
    simpa only [List.append_nil] using skippedThen

theorem Stage.Skips.suffix {inTemplate : Bool} {chars start : List Char}
    (skips : Skips inTemplate chars start) : start <:+ chars := by
  cases skips with
  | template => exact List.suffix_rfl
  | gap skipped => exact suffix_of_skipGap skipped

theorem Stage.skips_space {c : Char} (space : isSpace c = true) {chars start : List Char}
    (skips : Skips false chars start) : Skips false (c :: chars) start := by
  have behind : Skips false (chars.dropWhile isSpace) start := by
    cases skips with
    | @gap fuel offset comments lineBreak gap chars start skipped =>
      cases chars with
      | nil => exact .gap skipped
      | cons first rest =>
        cases isFirst : isSpace first with
        | false =>
          rw [List.dropWhile_cons_of_neg (by simp [isFirst])]
          exact .gap skipped
        | true =>
          cases fuel with
          | zero => cases skipped
          | succ fuel =>
            rw [skipGap_space isFirst (List.span_eq_takeWhile_dropWhile ..)] at skipped
            exact .gap skipped
  obtain ⟨gap, offset, skipped⟩ := behind.exists_skipGap (Nat.lt_succ_self _)
    (false || ((c :: chars).takeWhile isSpace).contains '\n')
    (0 + width ((c :: chars).takeWhile isSpace))
  have cut : (c :: chars).span isSpace =
      ((c :: chars).takeWhile isSpace, chars.dropWhile isSpace) := by
    rw [List.span_eq_takeWhile_dropWhile, List.dropWhile_cons_of_pos space]
  rw [← skipGap_space space cut] at skipped
  exact .gap skipped

theorem Stage.skips_spaces {blanks : List Char} (spaces : ∀ c ∈ blanks, isSpace c = true)
    {chars start : List Char} (skips : Skips false chars start) :
    Skips false (blanks ++ chars) start := by
  induction blanks with
  | nil => exact skips
  | cons c rest inductionHypothesis =>
    rw [List.forall_mem_cons] at spaces
    exact skips_space spaces.1 (inductionHypothesis spaces.2)

theorem exists_scanFrom_of_reads {stage final : Stage} {chars rest : List Char}
    {lexemes : List Lexeme} (reads : Reads stage chars lexemes final rest)
    (outside : final.inTemplate = false) (closed : final.memory.openings = [])
    (spaces : ∀ c ∈ rest, isSpace c = true) :
    ∀ {fuel : Nat} (offset : Nat), chars.length < fuel → ∃ tokens, tokens ≠ [] ∧
      scanFrom fuel stage.memory stage.inTemplate ⟨offset, chars⟩ = some tokens ∧
        tokens.dropLast.map lexeme = lexemes ∧ ∀ token ∈ tokens.getLast?, token.comments = [] := by
  -- by induction on the reading, with any fuel that exceeds the characters left
  induction reads with
  | done stage chars =>
    intro fuel offset enough
    obtain ⟨lineBreak, offsetThen, skipped⟩ := skipGap_blanks spaces enough [] false offset
    cases fuel with
    | zero => cases enough
    | succ fuel =>
      refine ⟨[⟨.finish, "", Span.point offsetThen, Gap.hasLineBreak ⟨[], lineBreak⟩, []⟩],
        List.cons_ne_nil _ _, ?_, rfl, ?_⟩
      · simp only [scanFrom, outside, Bool.false_eq_true, if_false, Option.bind_eq_bind, skipped,
          Option.bind_some, closed, List.isEmpty_nil, Bool.not_true, Bool.or_self, if_true]
      · rintro token ⟨⟩
        rfl
  | @token stage final chars start taken left rest kind next lexemes skips took others
      inductionHypothesis =>
    intro fuel offset enough
    obtain ⟨nonempty, split⟩ := takes_of_take took
    have shorter : left.length < chars.length := by
      have inChars := skips.suffix.length_le
      have wide := List.length_pos_iff.2 nonempty
      rw [← split, List.length_append] at inChars
      omega
    have startNonempty : start ≠ [] := by
      rintro rfl
      exact nonempty (List.append_eq_nil_iff.1 split).1
    cases fuel with
    | zero => cases enough
    | succ fuel =>
      have goesOn := @inductionHypothesis outside closed spaces fuel
      obtain ⟨memory, inTemplate⟩ := stage
      -- in a template all characters are text, and in code the gap is skipped first
      cases inTemplate with
      | true =>
        cases skips with
        | template =>
          obtain ⟨tokens, more, scanned, same, noComments⟩ :=
            goesOn (offset + width taken) (by omega)
          refine ⟨⟨kind, String.ofList taken, ⟨offset, offset + width taken⟩, false, []⟩ :: tokens,
            List.cons_ne_nil _ _, ?_, ?_, ?_⟩
          · have tookText : takeTemplateToken memory chars = some (kind, taken, left, next) := took
            simp only [scanFrom, if_true, Option.bind_eq_bind, Option.bind_some,
              List.isEmpty_eq_false_iff.2 startNonempty, Bool.false_eq_true, if_false, tookText,
              Position.skip, scanned]
            rfl
          · rw [List.dropLast_cons_of_ne_nil more, List.map_cons, same]
            rfl
          · rwa [List.getLast?_cons_of_ne_nil more]
      | false =>
        obtain ⟨gap, offsetThen, skipped⟩ := skips.exists_skipGap enough false offset
        obtain ⟨tokens, more, scanned, same, noComments⟩ :=
          goesOn (offsetThen + width taken) (by omega)
        refine ⟨⟨kind, String.ofList taken, ⟨offsetThen, offsetThen + width taken⟩,
          gap.hasLineBreak, gap.comments⟩ :: tokens, List.cons_ne_nil _ _, ?_, ?_, ?_⟩
        · have tookCode : takeToken memory start = some (kind, taken, left, next) := took
          simp only [scanFrom, Bool.false_eq_true, if_false, Option.bind_eq_bind, skipped,
            Option.bind_some, List.isEmpty_eq_false_iff.2 startNonempty, tookCode, Position.skip,
            scanned]
        · rw [List.dropLast_cons_of_ne_nil more, List.map_cons, same]
          rfl
        · rwa [List.getLast?_cons_of_ne_nil more]

/-- Whatever a text reads as is what the scanner makes of it. -/
theorem lexemes?_eq_some_iff {text : String} {lexemes : List Lexeme} :
    lexemes? text = some lexemes ↔ ReadsAs text lexemes := by
  refine ⟨readsAs_of_lexemes?, fun ⟨memory, left, reads, closed, spaces⟩ => ?_⟩
  obtain ⟨tokens, _, scanned, same, noComments⟩ :=
    exists_scanFrom_of_reads reads rfl closed spaces 0 (Nat.lt_succ_self _)
  refine Option.bind_eq_some_iff.2 ⟨tokens, scanned, ?_⟩
  rw [if_pos, same]
  rw [Option.all_eq_true]
  exact fun token isLast => List.isEmpty_iff.2 (noComments token isLast)

theorem ReadsAs.unique {text : String} {lexemes others : List Lexeme} (reads : ReadsAs text lexemes)
    (readsOther : ReadsAs text others) : lexemes = others :=
  Option.some.inj
    ((lexemes?_eq_some_iff.2 reads).symm.trans (lexemes?_eq_some_iff.2 readsOther))

instance (text : String) (lexemes : List Lexeme) : Decidable (ReadsAs text lexemes) :=
  decidable_of_iff _ lexemes?_eq_some_iff

/-! ## Marks -/

/-- The lexeme of a mark of one character. -/
def markLexeme (c : Char) : Lexeme := ⟨.punctuation, String.ofList [c]⟩

/-- What starts with a mark, and with nothing else, is read as the mark. -/
theorem takeToken_of_mark {memory next : Memory} {c : Char} {left : List Char}
    (plain : c ∉ ['\x60', '\x27', '\x22', '#', '/', '\x7d']) (noName : isNameStart c = false)
    (noNumber : (c.isDigit || c == '.' && left.head?.any Char.isDigit) = false)
    (took : takeMark (c :: left) = some ([c], left))
    (after : memory.afterMark (String.ofList [c]) = some next) :
    takeToken memory (c :: left) = some (.punctuation, [c], left, next) := by
  have noSlash : (c == '/') = false := beq_eq_false_iff_ne.2 (by rintro rfl; simp at plain)
  have noBrace : (c == '\x7d') = false := beq_eq_false_iff_ne.2 (by rintro rfl; simp at plain)
  unfold takeToken
  dsimp only
  split
  case h_1 same => cases same
  case h_6 same =>
    cases same
    simp only [noName, noNumber, noSlash, noBrace, took, after, Bool.false_and, Bool.false_eq_true,
      if_false, Option.bind_eq_bind, Option.bind_some]
  all_goals
    next same =>
      cases same
      simp at plain

theorem Stage.skips_nothing {c : Char} (noSpace : isSpace c = false) (noSlash : c ≠ '/')
    (rest : List Char) : Skips false (c :: rest) (c :: rest) :=
  @Skips.gap 1 0 [] false ⟨[], false⟩ _ ⟨0, c :: rest⟩
    (skipGap_token (Bool.eq_false_iff.1 noSpace) fun slash => absurd slash noSlash)

/-- A bracket or a comma, with blanks in front of it. -/
theorem reads_mark {memory next : Memory} {c : Char} (short : c = '(' ∨ c = ')' ∨ c = ',')
    (after : memory.afterMark (String.ofList [c]) = some next) {blanks : List Char}
    (spaces : ∀ c ∈ blanks, isSpace c = true) (back : List Char) :
    Reads ⟨memory, false⟩ (blanks ++ c :: back) [markLexeme c] ⟨next, false⟩ back := by
  have took : takeMark (c :: back) = some ([c], back) := by
    rcases short with rfl | rfl | rfl <;> exact takeMark_of_short (by decide) (by decide) back
  have tookToken : takeToken memory (c :: back) = some (.punctuation, [c], back, next) := by
    refine takeToken_of_mark ?_ ?_ ?_ took after
    · rcases short with rfl | rfl | rfl <;> decide
    · rcases short with rfl | rfl | rfl <;> decide
    · rcases short with rfl | rfl | rfl <;> rfl
  have skips : Stage.Skips false (blanks ++ c :: back) (c :: back) := by
    refine Stage.skips_spaces spaces (Stage.skips_nothing ?_ ?_ back)
    all_goals rcases short with rfl | rfl | rfl <;> decide
  exact .token skips tookToken (.done _ _)

theorem takeMark_dot {back : List Char} (noDot : ∀ c ∈ back.head?, c ≠ '.') :
    takeMark ('.' :: back) = some (['.'], back) := by
  refine takeMark_of_alone (by decide) fun mark member front => ?_
  obtain ⟨first, others, chars, rfl⟩ := exists_cons_of_longMarks member front
  -- the only one of the longer marks that starts with a dot has three of them
  have dots : mark.toList.head? ≠ some '.' ∨ mark = "..." :=
    (by decide : ∀ mark ∈ longMarks, mark.toList.head? ≠ some '.' ∨ mark = "...") mark member
  rcases dots with other | rfl
  · exact other (by rw [chars]; rfl)
  · obtain ⟨more, same⟩ := front
    have second : back.head? = some '.' := congrArg (fun chars => chars.tail.head?) same.symm
    exact noDot '.' second rfl

/-- A dot in front of what is no number and no further dot. -/
theorem reads_dot (memory : Memory) {back : List Char}
    (name : ∀ c ∈ back.head?, c.isDigit = false ∧ c ≠ '.') :
    Reads ⟨memory, false⟩ ('.' :: back) [markLexeme '.'] ⟨⟨memory.openings, true, false⟩, false⟩
      back := by
  have took : takeMark ('.' :: back) = some (['.'], back) :=
    takeMark_dot fun c isFirst => (name c isFirst).2
  have noNumber : back.head?.any Char.isDigit = false := by
    cases back with
    | nil => rfl
    | cons c rest => exact (name c rfl).1
  have after : memory.afterMark (String.ofList ['.']) = some ⟨memory.openings, true, false⟩ := rfl
  have tookToken : takeToken memory ('.' :: back) =
      some (.punctuation, ['.'], back, ⟨memory.openings, true, false⟩) :=
    takeToken_of_mark (by decide) (by decide) (by rw [noNumber]; rfl) took after
  have skips : Stage.Skips false ('.' :: back) ('.' :: back) :=
    Stage.skips_nothing (by decide) (by decide) back
  exact .token skips tookToken (.done _ _)

/-! ## Calls -/

/-- The lexemes of arguments with commas between them, and of the bracket behind them. -/
def argumentLexemes : List (List Lexeme) → List Lexeme
  | [] => [markLexeme ')']
  | [only] => only ++ [markLexeme ')']
  | first :: second :: rest => first ++ markLexeme ',' :: argumentLexemes (second :: rest)

def callLexemes (callee : List Lexeme) (arguments : List (List Lexeme)) : List Lexeme :=
  callee ++ markLexeme '(' :: argumentLexemes arguments

theorem endsTokens_cons {c : Char} (mark : c = '(' ∨ c = ')' ∨ c = ',') (rest : List Char) :
    EndsTokens (c :: rest) := by
  intro first isFirst
  cases isFirst
  exact mark

/-- A text is read in front of what ends it as it is by itself, with blanks left behind it. -/
theorem ReadsAs.inside {text : String} {lexemes : List Lexeme} (reads : ReadsAs text lexemes)
    (around : List Opening) {back : List Char} (ends : EndsTokens back) :
    ∃ memory blanks, memory.openings = around ∧ (∀ c ∈ blanks, isSpace c = true) ∧
      Reads ⟨⟨around, true, false⟩, false⟩ (text.toList ++ back) lexemes ⟨memory, false⟩
        (blanks ++ back) := by
  obtain ⟨memory, blanks, reads, closed, spaces⟩ := reads
  refine ⟨memory.inside around, blanks, ?_, spaces, reads.append rfl ends around⟩
  rw [Memory.inside, closed, List.nil_append]

theorem Reads.space {memory : Memory} {final : Stage} {c : Char} {chars rest : List Char}
    {first : Lexeme} {lexemes : List Lexeme} (space : isSpace c = true)
    (reads : Reads ⟨memory, false⟩ chars (first :: lexemes) final rest) :
    Reads ⟨memory, false⟩ (c :: chars) (first :: lexemes) final rest := by
  cases reads with
  | token skips took others => exact .token (Stage.skips_space space skips) took others

theorem argumentLexemes_ne_nil (lists : List (List Lexeme)) : argumentLexemes lists ≠ [] := by
  fun_cases argumentLexemes lists <;> simp

theorem reads_arguments {texts : List String} {lists : List (List Lexeme)}
    (reads : List.Forall₂ ReadsAs texts lists) (head : Bool) (around : List Opening)
    (back : List Char) :
    Reads ⟨⟨.parenthesis head :: around, true, false⟩, false⟩
      ((Text.join ", " texts).toList ++ ')' :: back) (argumentLexemes lists)
      ⟨⟨around, head, false⟩, false⟩ back := by
  induction reads with
  | nil => exact @reads_mark _ _ ')' (.inr (.inl rfl)) rfl [] (by simp) back
  | @cons text lexemes texts lists read others inductionHypothesis =>
    cases others with
    | nil =>
      obtain ⟨memory, blanks, isOpen, spaces, reads⟩ :=
        read.inside (.parenthesis head :: around) (endsTokens_cons (.inr (.inl rfl)) back)
      have closing : memory.afterMark (String.ofList [')']) = some ⟨around, head, false⟩ := by
        obtain ⟨openings, operandDue, conditionDue⟩ := memory
        cases isOpen
        rfl
      rw [Text.join, String.intercalate_singleton]
      exact reads.trans (reads_mark (.inr (.inl rfl)) closing spaces back)
    | @cons second secondLexemes texts lists readSecond others =>
      have joined : (Text.join ", " (text :: second :: texts)).toList ++ ')' :: back =
          text.toList ++ ',' :: ' ' ::
            ((Text.join ", " (second :: texts)).toList ++ ')' :: back) := by
        simp [Text.join, String.intercalate_cons_cons]
      obtain ⟨memory, blanks, isOpen, spaces, reads⟩ := read.inside (.parenthesis head :: around)
        (endsTokens_cons (.inr (.inr rfl))
          (' ' :: ((Text.join ", " (second :: texts)).toList ++ ')' :: back)))
      have between : memory.afterMark (String.ofList [',']) =
          some ⟨.parenthesis head :: around, true, false⟩ := by
        rw [← isOpen]
        rfl
      obtain ⟨first, rest, more⟩ :=
        List.exists_cons_of_ne_nil (argumentLexemes_ne_nil (secondLexemes :: lists))
      have behind : Reads ⟨⟨.parenthesis head :: around, true, false⟩, false⟩
          (' ' :: ((Text.join ", " (second :: texts)).toList ++ ')' :: back))
          (argumentLexemes (secondLexemes :: lists)) ⟨⟨around, head, false⟩, false⟩ back := by
        rw [more] at inductionHypothesis ⊢
        exact inductionHypothesis.space (by decide)
      rw [joined, argumentLexemes]
      exact reads.trans ((reads_mark (.inr (.inr rfl)) between spaces _).trans behind)

/-- A call of what is read by itself, in front of whatever. -/
theorem reads_call {callee : String} {lexemes : List Lexeme} {texts : List String}
    {lists : List (List Lexeme)} (reads : ReadsAs callee lexemes)
    (arguments : List.Forall₂ ReadsAs texts lists) (around : List Opening) (back : List Char) :
    ∃ head, Reads ⟨⟨around, true, false⟩, false⟩ ((renderCall callee texts).toList ++ back)
      (callLexemes lexemes lists) ⟨⟨around, head, false⟩, false⟩ back := by
  have written : (renderCall callee texts).toList ++ back =
      callee.toList ++ '(' :: ((Text.join ", " texts).toList ++ ')' :: back) := by
    simp [renderCall]
  obtain ⟨memory, blanks, isOpen, spaces, front⟩ := reads.inside around
    (endsTokens_cons (.inl rfl) ((Text.join ", " texts).toList ++ ')' :: back))
  have opening : memory.afterMark (String.ofList ['(']) =
      some ⟨.parenthesis memory.conditionDue :: around, true, false⟩ := by
    rw [← isOpen]
    rfl
  refine ⟨memory.conditionDue, ?_⟩
  rw [written]
  exact front.trans ((reads_mark (.inl rfl) opening spaces _).trans
    (reads_arguments arguments memory.conditionDue around back))

/-- By itself, a call reads as its callee and its arguments, with the marks of a call. -/
theorem readsAs_renderCall {callee : String} {lexemes : List Lexeme} {texts : List String}
    {lists : List (List Lexeme)} (reads : ReadsAs callee lexemes)
    (arguments : List.Forall₂ ReadsAs texts lists) :
    ReadsAs (renderCall callee texts) (callLexemes lexemes lists) := by
  obtain ⟨head, call⟩ := reads_call reads arguments [] []
  rw [List.append_nil] at call
  exact ⟨⟨[], head, false⟩, [], call, rfl, by simp⟩

end Token

end CreatorMigration
