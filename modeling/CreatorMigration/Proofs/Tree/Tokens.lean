import CreatorMigration.Proofs.Text.Cuts
import CreatorMigration.Tree.Token.Lexer
import Mathlib.Data.List.TakeDrop

/-! # Tokens in a text

The scanner takes each token and each comment off the front of what is left of the text, so their
spans stand in the text one behind the other.
-/

namespace CreatorMigration

open String (utf8Len)

namespace Token

/-! ## Single tokens

What is taken off the front of some characters is what stood there. -/

theorem span_append {α : Type} (holds : α → Bool) (list : List α) :
    (list.span holds).1 ++ (list.span holds).2 = list := by
  rw [List.span_eq_takeWhile_dropWhile]
  exact List.takeWhile_append_dropWhile

theorem append_of_span {holds : Char → Bool} {chars taken left : List Char}
    (cut : chars.span holds = (taken, left)) : taken ++ left = chars := by
  have split := span_append holds chars
  rwa [cut] at split

theorem ne_nil_of_span {holds : Char → Bool} {c : Char} {rest taken left : List Char}
    (first : holds c = true) (cut : (c :: rest).span holds = (taken, left)) : taken ≠ [] := by
  rw [List.span_eq_takeWhile_dropWhile, List.takeWhile_cons_of_pos first] at cut
  cases cut
  exact List.cons_ne_nil _ _

theorem append_of_takeString {quote : Char} {chars taken left : List Char}
    (took : takeString quote chars = some (taken, left)) : taken ++ left = chars := by
  fun_induction takeString quote chars generalizing taken left with
  | case1 => cases took
  | case2 escaped rest inductionHypothesis =>
    obtain ⟨⟨more, _⟩, tookRest, same⟩ := Option.map_eq_some_iff.1 took
    cases same
    simp [inductionHypothesis tookRest]
  | case3 rest =>
    cases took
    rfl
  | case4 => cases took
  | case5 c rest _ _ _ inductionHypothesis =>
    obtain ⟨⟨more, _⟩, tookRest, same⟩ := Option.map_eq_some_iff.1 took
    cases same
    simp [inductionHypothesis tookRest]

theorem append_of_takeRegex {inClass : Bool} {chars taken left : List Char}
    (took : takeRegex inClass chars = some (taken, left)) : taken ++ left = chars := by
  fun_induction takeRegex inClass chars generalizing taken left with
  | case1 => cases took
  | case2 inClass escaped rest inductionHypothesis =>
    obtain ⟨⟨more, _⟩, tookRest, same⟩ := Option.map_eq_some_iff.1 took
    cases same
    simp [inductionHypothesis tookRest]
  | case3 =>
    cases took
    rfl
  | case4 => cases took
  | case5 inClass c rest _ _ _ inductionHypothesis =>
    obtain ⟨⟨more, _⟩, tookRest, same⟩ := Option.map_eq_some_iff.1 took
    cases same
    simp [inductionHypothesis tookRest]

theorem append_of_takeBlockComment {chars taken left : List Char}
    (took : takeBlockComment chars = some (taken, left)) : taken ++ left = chars := by
  fun_induction takeBlockComment chars generalizing taken left with
  | case1 => cases took
  | case2 rest =>
    cases took
    rfl
  | case3 c rest _ inductionHypothesis =>
    obtain ⟨⟨more, _⟩, tookRest, same⟩ := Option.map_eq_some_iff.1 took
    cases same
    simp [inductionHypothesis tookRest]

theorem takeTemplateText_append (chars : List Char) :
    (takeTemplateText chars).1 ++ (takeTemplateText chars).2 = chars := by
  fun_induction takeTemplateText chars with
  | case1 => rfl
  | case2 => rfl
  | case3 => rfl
  | case4 c rest _ _ taken left took inductionHypothesis =>
    rw [took] at inductionHypothesis
    simpa using inductionHypothesis

theorem takeExponent_append (chars : List Char) :
    (takeExponent chars).1 ++ (takeExponent chars).2 = chars := by
  fun_cases takeExponent chars with
  | case1 => rfl
  | case2 mark sign rest _ _ digits left cut => simp [append_of_span cut]
  | case3 mark sign rest _ _ _ digits left cut => simp [append_of_span cut]
  | case4 => rfl
  | case5 => rfl

theorem takeDecimal_append (chars : List Char) :
    (takeNumber.takeDecimal chars).1 ++ (takeNumber.takeDecimal chars).2 = chars := by
  fun_cases takeNumber.takeDecimal chars with
  | case1 whole left cut => simpa using append_of_span cut
  | case2 whole afterDot fraction afterFraction fractionCut exponent left took cut =>
    have split := takeExponent_append afterFraction
    rw [took] at split
    rw [← append_of_span cut, ← append_of_span fractionCut, ← split]
    simp
  | case3 whole other _ _ exponent left took cut =>
    have split := takeExponent_append other
    rw [took] at split
    rw [← append_of_span cut, ← split, List.append_assoc]

theorem takeNumber_append (chars : List Char) :
    (takeNumber chars).1 ++ (takeNumber chars).2 = chars := by
  fun_cases takeNumber chars with
  | case1 radix rest _ digits left cut => simp [append_of_span cut]
  | case2 => exact takeDecimal_append _
  | case3 => exact takeDecimal_append _

theorem takeDecimal_ne_nil {c : Char} {rest : List Char}
    (starts : (c.isDigit || (c == '.' && rest.head?.any Char.isDigit)) = true) :
    (takeNumber.takeDecimal (c :: rest)).1 ≠ [] := by
  fun_cases takeNumber.takeDecimal (c :: rest) with
  | case1 whole left cut => simp
  | case2 whole afterDot fraction afterFraction fractionCut exponent left took cut => simp
  | case3 whole other noSuffix noDot exponent left took cut =>
    rcases Bool.or_eq_true_iff.1 starts with digit | dot
    · have wholeDigits := ne_nil_of_span (by simp [isDigitPart, digit]) cut
      simp [wholeDigits]
    · -- a dot in front is no part of the whole number, so it is what follows
      obtain ⟨isDot, _⟩ := Bool.and_eq_true_iff.1 dot
      obtain rfl : c = '.' := eq_of_beq isDot
      rw [List.span_eq_takeWhile_dropWhile, List.dropWhile_cons_of_neg (by decide)] at cut
      cases cut
      exact absurd rfl (noDot _)

theorem takeNumber_ne_nil {c : Char} {rest : List Char}
    (starts : (c.isDigit || (c == '.' && rest.head?.any Char.isDigit)) = true) :
    (takeNumber (c :: rest)).1 ≠ [] := by
  unfold takeNumber
  split
  · next radix more same =>
    split
    · simp
    · cases same
      exact takeDecimal_ne_nil starts
  · exact takeDecimal_ne_nil starts

theorem append_of_takeMark {chars taken left : List Char}
    (took : takeMark chars = some (taken, left)) : taken ++ left = chars := by
  unfold takeMark at took
  split at took
  · next mark found =>
    have isFront : mark.toList.isPrefixOf chars = true := by simpa using List.find?_some found
    obtain ⟨rest, rfl⟩ := List.isPrefixOf_iff_prefix.1 isFront
    have dropped : (mark.toList ++ rest).drop mark.length = rest := by
      rw [← String.length_toList, List.drop_left]
    dsimp only at took
    split at took
    -- the question mark alone is taken off `?.` in front of a digit
    · next conditional =>
      have isMark : mark = "?." := eq_of_beq (Bool.and_eq_true_iff.1 conditional).1
      cases took
      subst isMark
      simp
    · cases took
      rw [dropped]
  · split at took
    · split at took
      · cases took
        rfl
      · cases took
    · cases took

theorem ne_nil_of_takeMark {chars taken left : List Char}
    (took : takeMark chars = some (taken, left)) : taken ≠ [] := by
  have marks : ∀ mark ∈ longMarks, mark.toList ≠ [] := by decide
  unfold takeMark at took
  split at took
  · next mark found =>
    dsimp only at took
    split at took
    · cases took
      exact List.cons_ne_nil _ _
    · cases took
      exact marks mark (List.mem_of_find?_eq_some found)
  · split at took
    · split at took
      · cases took
        exact List.cons_ne_nil _ _
      · cases took
    · cases took

/-- A token has characters, and these are taken off the front. -/
theorem takes_of_takeToken {memory next : Memory} {kind : TokenKind} {chars taken left : List Char}
    (took : takeToken memory chars = some (kind, taken, left, next)) :
    taken ≠ [] ∧ taken ++ left = chars := by
  fun_cases takeToken memory chars with
  | case1 => cases took
  | case2 settled rest =>
    cases took
    exact ⟨List.cons_ne_nil _ _, rfl⟩
  | case3 settled rest =>
    obtain ⟨⟨body, _⟩, tookBody, same⟩ := Option.bind_eq_some_iff.1 took
    cases same
    simp [append_of_takeString tookBody]
  | case4 settled rest =>
    obtain ⟨⟨body, _⟩, tookBody, same⟩ := Option.bind_eq_some_iff.1 took
    cases same
    simp [append_of_takeString tookBody]
  | case5 rest name left cut empty =>
    simp only [takeToken, cut, empty] at took
    cases took
  | case6 settled rest name left cut nonempty =>
    simp only [takeToken, cut, nonempty] at took
    cases took
    simp [append_of_span cut]
  | case7 c rest _ _ _ _ isName name left cut =>
    simp only [takeToken, isName, cut] at took
    cases took
    exact ⟨ne_nil_of_span (Bool.and_eq_true_iff.1 isName).1 cut, append_of_span cut⟩
  -- a number may open with a period, and then with a digit behind it
  | case8 settled c rest _ _ _ _ noName isNumber number left tookNumber =>
    simp only [takeToken, noName, isNumber, tookNumber] at took
    cases took
    have digits := takeNumber_ne_nil isNumber
    have split := takeNumber_append (c :: rest)
    rw [tookNumber] at digits split
    exact ⟨digits, split⟩
  -- a regular expression: its slash, its body and its flags are taken one after the other
  | case9 settled c rest _ _ _ _ noName noNumber isSlash =>
    simp only [takeToken, noName, noNumber, isSlash, if_true] at took
    obtain ⟨⟨body, afterBody⟩, tookBody, same⟩ := Option.bind_eq_some_iff.1 took
    have slash : c = '/' := eq_of_beq (Bool.and_eq_true_iff.1 isSlash).1
    cases same
    refine ⟨List.cons_ne_nil _ _, ?_⟩
    rw [List.append_assoc, span_append, List.cons_append, append_of_takeRegex tookBody, slash]
  | case10 c rest _ _ _ _ noName noNumber noSlash closes =>
    simp only [takeToken, noName, noNumber, noSlash, closes] at took
    cases took
    exact ⟨List.cons_ne_nil _ _, rfl⟩
  | case11 c rest _ _ _ _ noName noNumber noSlash noHole =>
    simp only [takeToken, noName, noNumber, noSlash, noHole] at took
    obtain ⟨⟨mark, left⟩, tookMark, remembered⟩ := Option.bind_eq_some_iff.1 took
    obtain ⟨memory, _, same⟩ := Option.bind_eq_some_iff.1 remembered
    cases same
    exact ⟨ne_nil_of_takeMark tookMark, append_of_takeMark tookMark⟩

theorem takes_of_takeTemplateToken {memory next : Memory} {kind : TokenKind}
    {chars taken left : List Char}
    (took : takeTemplateToken memory chars = some (kind, taken, left, next)) :
    taken ≠ [] ∧ taken ++ left = chars := by
  unfold takeTemplateToken at took
  split at took
  · cases took
  · cases took
    exact ⟨List.cons_ne_nil _ _, rfl⟩
  · cases took
    exact ⟨List.cons_ne_nil _ _, rfl⟩
  · cases took
    exact ⟨List.cons_ne_nil _ _, rfl⟩
  · dsimp only at took
    split at took
    · cases took
    · next nonempty =>
      cases took
      exact ⟨by simpa using nonempty, takeTemplateText_append _⟩

/-! ## Positions in a text -/

/-- The bytes of a token and of the comments in front of it. -/
def spans (token : Token) : List Span := token.comments.map Comment.span ++ [token.span]

theorem width_eq (chars : List Char) : width chars = utf8Len chars := by
  induction chars with
  | nil => rfl
  | cons c rest inductionHypothesis =>
    rw [String.utf8Len_cons, ← inductionHypothesis, Nat.add_comm]
    rfl

/-- What is left is the text from the offset on. -/
def Position.IsAt (text : String) (position : Position) : Prop :=
  ∃ front, text.toList = front ++ position.chars ∧ utf8Len front = position.offset

section

variable {text : String} {position : Position}

theorem Position.IsAt.isBoundary (placed : position.IsAt text) :
    Text.isBoundary text position.offset = true := by
  obtain ⟨front, chars, offset⟩ := placed
  exact Text.isBoundary_iff.2 ⟨front, position.chars, chars, offset⟩

theorem Position.IsAt.skip {taken left : List Char} (placed : position.IsAt text)
    (split : taken ++ left = position.chars) :
    (position.skip taken left).IsAt text ∧
      (⟨position.offset, (position.skip taken left).offset⟩ : Span).IsIn text := by
  obtain ⟨front, chars, offset⟩ := placed
  have here : (position.skip taken left).IsAt text := by
    refine ⟨front ++ taken, ?_, ?_⟩
    · rw [chars, ← split, List.append_assoc]
      rfl
    · rw [String.utf8Len_append, offset, ← width_eq]
      rfl
  refine ⟨here, Nat.le_add_right _ _, ?_, here.isBoundary⟩
  exact Position.IsAt.isBoundary ⟨front, chars, offset⟩

/-! ## Gaps -/

/-- A comment that is skipped stands behind the comments before it. -/
theorem inOrder_comments_concat {lower : Nat} {comments : List Comment} {taken left : List Char}
    {lineBreak : Bool} (placed : position.IsAt text) (split : taken ++ left = position.chars)
    (behind : Span.InOrder text lower position.offset (comments.map Comment.span)) :
    Span.InOrder text lower (position.skip taken left).offset
      ((comments ++ [(⟨⟨position.offset, (position.skip taken left).offset⟩, lineBreak⟩ :
        Comment)]).map Comment.span) := by
  rw [List.map_append]
  exact behind.append ⟨Nat.le_refl _, (placed.skip split).2, Nat.le_refl _⟩

theorem inOrder_of_skipGap {fuel lower : Nat} {comments : List Comment} {lineBreak : Bool}
    {gap : Gap} {start : Position}
    (skipped : skipGap fuel comments lineBreak position = some (gap, start))
    (placed : position.IsAt text)
    (behind : Span.InOrder text lower position.offset (comments.map Comment.span)) :
    start.IsAt text ∧ Span.InOrder text lower start.offset (gap.comments.map Comment.span) := by
  -- the comments that are read so far stand in front of the position, whatever is skipped next
  fun_induction skipGap fuel comments lineBreak position with
  | case1 => cases skipped
  | case2 fuel comments lineBreak position _ _ taken left cut after inductionHypothesis =>
    have split := append_of_span cut
    exact inductionHypothesis skipped (placed.skip split).1
      (inOrder_comments_concat placed split behind)
  | case3 fuel comments lineBreak position rest opened inductionHypothesis =>
    obtain ⟨⟨taken, left⟩, tookBody, continued⟩ := Option.bind_eq_some_iff.1 skipped
    have split : '/' :: '*' :: taken ++ left = position.chars := by
      rw [opened, List.cons_append, List.cons_append, append_of_takeBlockComment tookBody]
    exact inductionHypothesis taken left continued (placed.skip split).1
      (inOrder_comments_concat placed split behind)
  | case4 fuel comments lineBreak position c _ _ _ _ space taken left cut inductionHypothesis =>
    have split := append_of_span cut
    exact inductionHypothesis skipped (placed.skip split).1 (behind.to_le (Nat.le_add_right _ _))
  | case5 =>
    cases skipped
    exact ⟨placed, behind⟩
  | case6 =>
    cases skipped
    exact ⟨placed, behind⟩

/-! ## All tokens -/

/-- A token stands behind its comments and in front of the tokens that are left. -/
theorem inOrder_cons {lower upper : Nat} {token : Token} {rest : List Token}
    (comments : Span.InOrder text lower token.span.start (token.comments.map Comment.span))
    (placed : token.span.IsIn text)
    (behind : Span.InOrder text token.span.stop upper (rest.flatMap spans)) :
    Span.InOrder text lower upper ((token :: rest).flatMap spans) := by
  rw [List.flatMap_cons, spans, List.append_assoc]
  exact comments.append ⟨Nat.le_refl _, placed, behind⟩

/-- What one step of the scanner reads: a gap, which is nothing in a template, and then one token or
the end of the text, where no bracket is open. -/
theorem scanFrom_succ_cases {fuel : Nat} {memory : Memory} {inTemplate : Bool}
    {tokens : List Token} (scanned : scanFrom (fuel + 1) memory inTemplate position = some tokens) :
    ∃ gap start,
      (inTemplate = true ∧ gap = ⟨[], false⟩ ∧ start = position ∨
        inTemplate = false ∧ skipGap (fuel + 1) [] false position = some (gap, start)) ∧
      (inTemplate = false ∧ memory.openings = [] ∧ start.chars = [] ∧
          tokens = [⟨.finish, "", Span.point start.offset, gap.hasLineBreak, gap.comments⟩] ∨
        ∃ kind taken left next rest,
          (if inTemplate then takeTemplateToken memory start.chars
            else takeToken memory start.chars) = some (kind, taken, left, next) ∧
          taken ≠ [] ∧ taken ++ left = start.chars ∧
          scanFrom fuel next (entersTemplate inTemplate kind) (start.skip taken left) = some rest ∧
          tokens = ⟨kind, String.ofList taken, ⟨start.offset, (start.skip taken left).offset⟩,
            gap.hasLineBreak, gap.comments⟩ :: rest) := by
  cases inTemplate with
  | true =>
    refine ⟨⟨[], false⟩, position, .inl ⟨rfl, rfl, rfl⟩, ?_⟩
    simp only [scanFrom, if_true, Option.bind_eq_bind, Option.bind_some] at scanned
    split at scanned
    · cases scanned
    · obtain ⟨⟨kind, taken, left, next⟩, took, others⟩ := Option.bind_eq_some_iff.1 scanned
      obtain ⟨rest, scannedRest, same⟩ := Option.bind_eq_some_iff.1 others
      cases same
      obtain ⟨nonempty, split⟩ := takes_of_takeTemplateToken took
      exact .inr ⟨kind, taken, left, next, rest, took, nonempty, split, scannedRest, rfl⟩
  | false =>
    simp only [scanFrom, Bool.false_eq_true, if_false, Option.bind_eq_bind] at scanned
    obtain ⟨⟨gap, start⟩, skipped, continued⟩ := Option.bind_eq_some_iff.1 scanned
    refine ⟨gap, start, .inr ⟨rfl, skipped⟩, ?_⟩
    dsimp only at continued
    split at continued
    · next ended =>
      split at continued
      · cases continued
      · next closed =>
        cases continued
        exact .inl ⟨rfl, by simpa using closed, List.isEmpty_iff.1 ended, rfl⟩
    · obtain ⟨⟨kind, taken, left, next⟩, took, others⟩ := Option.bind_eq_some_iff.1 continued
      obtain ⟨rest, scannedRest, same⟩ := Option.bind_eq_some_iff.1 others
      cases same
      obtain ⟨nonempty, split⟩ := takes_of_takeToken took
      exact .inr ⟨kind, taken, left, next, rest, took, nonempty, split, scannedRest, rfl⟩

theorem inOrder_of_scanFrom {fuel : Nat} {memory : Memory} {inTemplate : Bool}
    {tokens : List Token} (scanned : scanFrom fuel memory inTemplate position = some tokens)
    (placed : position.IsAt text) :
    Span.InOrder text position.offset (Text.size text) (tokens.flatMap spans) := by
  induction fuel generalizing memory inTemplate position tokens with
  | zero => cases scanned
  | succ fuel inductionHypothesis =>
    obtain ⟨gap, start, skipped, read⟩ := scanFrom_succ_cases scanned
    have inFront : start.IsAt text ∧
        Span.InOrder text position.offset start.offset (gap.comments.map Comment.span) := by
      rcases skipped with ⟨_, rfl, rfl⟩ | ⟨_, skipped⟩
      · exact ⟨placed, Nat.le_refl _⟩
      · exact inOrder_of_skipGap skipped placed (Nat.le_refl _)
    rcases read with ⟨_, _, _, rfl⟩ |
      ⟨kind, taken, left, next, rest, _, _, split, scannedRest, rfl⟩
    · have atStart := inFront.1.isBoundary
      exact inOrder_cons inFront.2 (Span.isIn_point atStart) (Text.le_size_of_isBoundary atStart)
    · obtain ⟨placedRest, placedToken⟩ := inFront.1.skip split
      exact inOrder_cons inFront.2 placedToken (inductionHypothesis scannedRest placedRest)

theorem exists_of_hashBang? {chars : List Char} {token : Token}
    (opened : hashBang? chars = some (token, position)) :
    ∃ taken left, taken ≠ [] ∧ taken ++ left = chars ∧ token.comments = [] ∧
      token.span = ⟨0, width taken⟩ ∧ position = ⟨width taken, left⟩ := by
  unfold hashBang? at opened
  split at opened
  · cases opened
    have first : (fun c => !isLineEnd c) '#' = true := by decide
    exact ⟨_, _, ne_nil_of_span first (Prod.mk.eta).symm,
      span_append (fun c => !isLineEnd c) _, rfl, rfl, rfl⟩
  · cases opened

/-- The tokens of a text, each with its comments in front of it, stand in the text in order. -/
theorem inOrder_of_scan? {tokens : List Token} (scanned : scan? text = some tokens) :
    Span.InOrder text 0 (Text.size text) (tokens.flatMap spans) := by
  have atStart : (⟨0, text.toList⟩ : Position).IsAt text := ⟨[], rfl, rfl⟩
  simp only [scan?] at scanned
  split at scanned
  · next token position opened =>
    obtain ⟨rest, scannedRest, rfl⟩ := Option.map_eq_some_iff.1 scanned
    obtain ⟨taken, left, _, split, comments, span, rfl⟩ := exists_of_hashBang? opened
    obtain ⟨placedRest, placedToken⟩ := atStart.skip split
    simp only [Position.skip, Nat.zero_add] at placedRest placedToken
    refine inOrder_cons ?_ (span ▸ placedToken) (span ▸ inOrder_of_scanFrom scannedRest placedRest)
    rw [comments, span]
    exact Nat.le_refl _
  · exact inOrder_of_scanFrom scanned atStart

end

end Token

end CreatorMigration
