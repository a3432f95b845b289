import CreatorMigration.Proofs.Tree.Tokens
import Mathlib.Data.List.Find
import Mathlib.Data.List.TakeWhile

/-! # Tokens in front of more characters

A token is read by its own characters and a look at what follows. `Token.EndsTokens` holds of what
goes on with no token, and in front of it every token is read as it is at the end of a text:

* `Token.takeToken_append_back` and `Token.takeTemplateToken_append_back` say so for single tokens,
  also when more brackets are open around them.
* `Token.exists_skipGap_append` says so for blanks and comments in front of a token, which are
  skipped alike wherever they stand.
-/

namespace CreatorMigration.Token

/-! ## Single tokens in front of more characters -/

/-- What follows neither goes on with a token nor starts a comment. -/
def EndsTokens (back : List Char) : Prop := ∀ c ∈ back.head?, c = '(' ∨ c = ')' ∨ c = ','

theorem EndsTokens.eq_false {back : List Char} (ends : EndsTokens back) (holds : Char → Bool)
    (noMark : holds '(' = false ∧ holds ')' = false ∧ holds ',' = false) :
    ∀ c ∈ back.head?, holds c = false := by
  intro c first
  rcases ends c first with rfl | rfl | rfl
  · exact noMark.1
  · exact noMark.2.1
  · exact noMark.2.2

theorem any_head?_append {back : List Char} {holds : Char → Bool}
    (stops : ∀ c ∈ back.head?, holds c = false) (chars : List Char) :
    (chars ++ back).head?.any holds = chars.head?.any holds := by
  cases chars with
  | cons c rest => rfl
  | nil =>
    cases back with
    | nil => rfl
    | cons c rest => simpa using stops c rfl

theorem span_append_back {holds : Char → Bool} {chars taken left back : List Char}
    (cut : chars.span holds = (taken, left))
    (stops : left ≠ [] ∨ ∀ c ∈ back.head?, holds c = false) :
    (chars ++ back).span holds = (taken, left ++ back) := by
  rw [List.span_eq_takeWhile_dropWhile] at cut ⊢
  obtain ⟨rfl, rfl⟩ := Prod.mk.inj cut
  induction chars with
  | nil =>
    cases back with
    | nil => rfl
    | cons c rest =>
      have stop : holds c = false := by simpa using stops
      simp [stop]
  | cons c rest inductionHypothesis =>
    cases first : holds c with
    | false => simp [first]
    | true =>
      simp only [List.cons_append, List.takeWhile_cons, List.dropWhile_cons, first, if_true]
        at stops ⊢
      have others := inductionHypothesis stops rfl
      rw [Prod.mk.injEq] at others ⊢
      exact ⟨congrArg (c :: ·) others.1, others.2⟩

theorem takeString_append {quote : Char} (mark : quote ≠ '\\') {chars taken left : List Char}
    (took : takeString quote chars = some (taken, left)) (back : List Char) :
    takeString quote (chars ++ back) = some (taken, left ++ back) := by
  fun_induction takeString quote chars generalizing taken left with
  | case1 => cases took
  | case2 escaped rest inductionHypothesis =>
    obtain ⟨⟨more, _⟩, tookRest, same⟩ := Option.map_eq_some_iff.1 took
    cases same
    simp [takeString, inductionHypothesis tookRest]
  | case3 rest =>
    cases took
    simp [takeString, mark]
  | case4 => cases took
  | case5 c rest noEscape noQuote noBreak inductionHypothesis =>
    obtain ⟨⟨more, _⟩, tookRest, same⟩ := Option.map_eq_some_iff.1 took
    cases same
    cases rest with
    | nil => cases tookRest
    | cons next rest =>
      have plain : c ≠ '\\' := fun escape => noEscape next rest escape rfl
      have tookThere := inductionHypothesis tookRest
      rw [List.cons_append] at tookThere
      simp [takeString, plain, noQuote, noBreak, tookThere]

theorem takeRegex_append {inClass : Bool} {chars taken left : List Char}
    (took : takeRegex inClass chars = some (taken, left)) (back : List Char) :
    takeRegex inClass (chars ++ back) = some (taken, left ++ back) := by
  fun_induction takeRegex inClass chars generalizing taken left with
  | case1 => cases took
  | case2 inClass escaped rest inductionHypothesis =>
    obtain ⟨⟨more, _⟩, tookRest, same⟩ := Option.map_eq_some_iff.1 took
    cases same
    simp [takeRegex, inductionHypothesis tookRest]
  | case3 inClass c rest _ ends =>
    cases took
    simp [takeRegex, ends]
  | case4 => cases took
  | case5 inClass c rest noEscape noEnd noBreak inductionHypothesis =>
    obtain ⟨⟨more, _⟩, tookRest, same⟩ := Option.map_eq_some_iff.1 took
    cases same
    cases rest with
    | nil => cases tookRest
    | cons next rest =>
      have tookThere := inductionHypothesis tookRest
      rw [List.cons_append] at tookThere
      rw [List.cons_append, List.cons_append, takeRegex, if_neg noEnd, if_neg noBreak, tookThere]
      · rfl
      · intro _ _ escape _
        exact noEscape next rest escape rfl

theorem takeBlockComment_append {chars taken left : List Char}
    (took : takeBlockComment chars = some (taken, left)) (back : List Char) :
    takeBlockComment (chars ++ back) = some (taken, left ++ back) := by
  fun_induction takeBlockComment chars generalizing taken left with
  | case1 => cases took
  | case2 rest =>
    cases took
    rfl
  | case3 c rest noEnd inductionHypothesis =>
    obtain ⟨⟨more, _⟩, tookRest, same⟩ := Option.map_eq_some_iff.1 took
    cases same
    cases rest with
    | nil => cases tookRest
    | cons next rest =>
      have tookThere := inductionHypothesis tookRest
      rw [List.cons_append] at tookThere
      rw [List.cons_append, List.cons_append, takeBlockComment, tookThere]
      · rfl
      · rintro more rfl same
        obtain ⟨rfl, _⟩ := List.cons.inj same
        exact noEnd rest rfl rfl

theorem takeTemplateText_append_back {chars taken left : List Char}
    (took : takeTemplateText chars = (taken, left)) (more : left ≠ []) (back : List Char) :
    takeTemplateText (chars ++ back) = (taken, left ++ back) := by
  fun_induction takeTemplateText chars generalizing taken left with
  | case1 =>
    cases took
    exact absurd rfl more
  | case2 rest =>
    cases took
    rfl
  | case3 c rest noHole ends =>
    cases took
    rw [List.cons_append, takeTemplateText, if_pos ends]
    rintro others rfl _
    simp at ends
  | case4 c rest noHole goesOn takenRest leftRest tookRest inductionHypothesis =>
    cases took
    have tookThere := inductionHypothesis tookRest more
    cases rest with
    | nil =>
      cases tookRest
      exact absurd rfl more
    | cons next rest =>
      rw [List.cons_append] at tookThere
      rw [List.cons_append, List.cons_append, takeTemplateText, if_neg goesOn, tookThere]
      rintro others rfl same
      obtain ⟨rfl, _⟩ := List.cons.inj same
      exact noHole rest rfl rfl

/-! ## Numbers and marks -/

theorem takeExponent_of_ends {back : List Char} (ends : EndsTokens back) :
    takeExponent back = ([], back) := by
  have noMark := ends.eq_false (fun c => c == 'e' || c == 'E') (by decide)
  unfold takeExponent
  split
  · next mark sign rest =>
    have other : (mark == 'e' || mark == 'E') = false := noMark mark rfl
    rw [Bool.or_eq_false_iff] at other
    simp [bne, other]
  · rfl

theorem takeExponent_append_back {chars taken left back : List Char}
    (took : takeExponent chars = (taken, left)) (ends : EndsTokens back) :
    takeExponent (chars ++ back) = (taken, left ++ back) := by
  have noDigit := ends.eq_false Char.isDigit (by decide)
  have noPart := ends.eq_false isDigitPart (by decide)
  fun_cases takeExponent chars with
  | case1 mark sign rest noExponent =>
    simp only [takeExponent, noExponent, if_true] at took
    cases took
    simp [takeExponent, noExponent]
  -- what decides the case is seen within the characters, as no digit follows behind them
  | case2 mark sign rest exponent signed digits others cut =>
    rw [takeExponent, if_neg exponent, if_pos signed, cut] at took
    cases took
    rw [List.cons_append, List.cons_append, takeExponent, if_neg exponent,
      any_head?_append noDigit, if_pos signed, span_append_back cut (.inr noPart)]
  | case3 mark sign rest exponent unsigned digit digits others cut =>
    rw [takeExponent, if_neg exponent, if_neg unsigned, if_pos digit, cut] at took
    cases took
    rw [List.cons_append, List.cons_append, takeExponent, if_neg exponent,
      any_head?_append noDigit, if_neg unsigned, if_pos digit, ← List.cons_append,
      span_append_back cut (.inr noPart)]
  | case4 mark sign rest exponent unsigned noSign =>
    rw [takeExponent, if_neg exponent, if_neg unsigned, if_neg noSign] at took
    cases took
    rw [List.cons_append, List.cons_append, takeExponent, if_neg exponent,
      any_head?_append noDigit, if_neg unsigned, if_neg noSign]
  | case5 chars short =>
    have taken : (taken, left) = ([], chars) := by
      rw [← took]
      unfold takeExponent
      split
      · exact absurd rfl (short _ _ _)
      · rfl
    cases taken
    -- too few characters for an exponent, which those behind do not make up for
    match chars with
    | [] => exact takeExponent_of_ends ends
    | [mark] =>
      cases back with
      | nil => rfl
      | cons sign rest =>
        have noSign := ends.eq_false (fun c => c == '+' || c == '-') (by decide) sign rfl
        have noDigitHere := noDigit sign rfl
        simp [takeExponent, noSign, noDigitHere]
    | mark :: sign :: rest => exact absurd rfl (short mark sign rest)

theorem takeDecimal_of_span {chars whole other : List Char}
    (cut : chars.span isDigitPart = (whole, other))
    (plain : ∀ c ∈ other.head?, (c == 'n' || c == '.') = false) :
    takeNumber.takeDecimal chars =
      (whole ++ (takeExponent other).1, (takeExponent other).2) := by
  rw [takeNumber.takeDecimal, cut]
  dsimp only
  split
  · exact absurd (plain 'n' rfl) (by decide)
  · exact absurd (plain '.' rfl) (by decide)
  · rfl

theorem takeDecimal_append_back {chars taken left back : List Char}
    (took : takeNumber.takeDecimal chars = (taken, left)) (ends : EndsTokens back) :
    takeNumber.takeDecimal (chars ++ back) = (taken, left ++ back) := by
  have noPart := ends.eq_false isDigitPart (by decide)
  fun_cases takeNumber.takeDecimal chars with
  | case1 whole others cut =>
    rw [takeNumber.takeDecimal, cut] at took
    cases took
    rw [takeNumber.takeDecimal, span_append_back cut (.inr noPart)]
    rfl
  | case2 whole afterDot fraction afterFraction fractionCut exponent others tookExponent cut =>
    rw [takeNumber.takeDecimal, cut] at took
    simp only [fractionCut, tookExponent] at took
    cases took
    rw [takeNumber.takeDecimal, span_append_back cut (.inr noPart)]
    simp only [List.cons_append, span_append_back fractionCut (.inr noPart),
      takeExponent_append_back tookExponent ends]
  | case3 whole other noSuffix noDot exponent others tookExponent cut =>
    have plain : ∀ c ∈ (other ++ back).head?, (c == 'n' || c == '.') = false := by
      cases other with
      | nil => exact ends.eq_false _ (by decide)
      | cons first rest =>
        intro c isFirst
        cases isFirst
        rw [Bool.or_eq_false_iff, beq_eq_false_iff_ne, beq_eq_false_iff_ne]
        exact ⟨fun same => noSuffix rest (by rw [same]), fun same => noDot rest (by rw [same])⟩
    have plainHere : ∀ c ∈ other.head?, (c == 'n' || c == '.') = false := by
      intro c isFirst
      refine plain c ?_
      cases other with
      | nil => cases isFirst
      | cons first rest => exact isFirst
    rw [takeDecimal_of_span cut plainHere, tookExponent] at took
    cases took
    rw [takeDecimal_of_span (span_append_back cut (.inr noPart)) plain,
      takeExponent_append_back tookExponent ends]

theorem takeNumber_append_back {chars taken left back : List Char}
    (took : takeNumber chars = (taken, left)) (ends : EndsTokens back) :
    takeNumber (chars ++ back) = (taken, left ++ back) := by
  have noPart := ends.eq_false (fun c => c.isAlphanum || c == '_') (by decide)
  fun_cases takeNumber chars with
  | case1 radix rest isRadix digits others cut =>
    rw [takeNumber, if_pos isRadix, cut] at took
    cases took
    rw [List.cons_append, List.cons_append, takeNumber, if_pos isRadix,
      span_append_back cut (.inr noPart)]
  | case2 radix rest noRadix =>
    rw [takeNumber, if_neg noRadix] at took
    rw [List.cons_append, List.cons_append, takeNumber, if_neg noRadix, ← List.cons_append,
      ← List.cons_append]
    exact takeDecimal_append_back took ends
  | case3 chars noRadix =>
    have decimal : takeNumber chars = takeNumber.takeDecimal chars := by
      unfold takeNumber
      split
      · exact absurd rfl (noRadix _ _)
      · rfl
    have decimalThere : takeNumber (chars ++ back) = takeNumber.takeDecimal (chars ++ back) := by
      generalize same : chars ++ back = all
      unfold takeNumber
      split
      · next radix rest =>
        have noMark := ends.eq_false (fun c => c == '0' || "xXoObB".toList.contains c) (by decide)
        cases chars with
        | nil => exact absurd (noMark '0' (by rw [← List.nil_append back, same]; rfl)) (by decide)
        | cons zero more =>
          cases more with
          | nil =>
            obtain ⟨rfl, rfl⟩ := List.cons.inj same
            have other := noMark radix rfl
            rw [Bool.or_eq_false_iff] at other
            rw [if_neg (by rw [other.2]; exact Bool.false_ne_true)]
          | cons second more =>
            obtain ⟨rfl, others⟩ := List.cons.inj same
            exact absurd rfl (noRadix second more)
      · rfl
    rw [decimalThere]
    exact takeDecimal_append_back (decimal ▸ took) ends

theorem isPrefixOf_append_back {mark back : List Char} (apart : ∀ c ∈ back.head?, c ∉ mark)
    (chars : List Char) : mark.isPrefixOf (chars ++ back) = mark.isPrefixOf chars := by
  induction chars generalizing mark with
  | nil =>
    cases mark with
    | nil => simp [List.isPrefixOf]
    | cons first others =>
      cases back with
      | nil => rfl
      | cons c rest =>
        have other : c ≠ first := fun same => apart c rfl (same ▸ List.mem_cons_self)
        simp [List.isPrefixOf, other.symm]
  | cons c rest inductionHypothesis =>
    cases mark with
    | nil => rfl
    | cons first others =>
      have apartThere : ∀ c ∈ back.head?, c ∉ others :=
        fun c isFirst member => apart c isFirst (List.mem_cons_of_mem _ member)
      simp [List.isPrefixOf, inductionHypothesis apartThere]

theorem takeMark_append_back {chars taken left back : List Char}
    (took : takeMark chars = some (taken, left)) (ends : EndsTokens back) :
    takeMark (chars ++ back) = some (taken, left ++ back) := by
  have noDigit := ends.eq_false Char.isDigit (by decide)
  have apart : ∀ mark ∈ longMarks, ∀ c ∈ back.head?, c ∉ mark.toList := by
    have marks : ∀ mark ∈ longMarks,
        '(' ∉ mark.toList ∧ ')' ∉ mark.toList ∧ ',' ∉ mark.toList := by decide
    intro mark member c isFirst
    rcases ends c isFirst with rfl | rfl | rfl
    · exact (marks mark member).1
    · exact (marks mark member).2.1
    · exact (marks mark member).2.2
  -- a longer mark would have to take a character from behind, and none of these is part of one
  have sameFound : longMarks.find? (fun mark => mark.toList.isPrefixOf (chars ++ back)) =
      longMarks.find? (fun mark => mark.toList.isPrefixOf chars) :=
    List.find?_congr fun mark member => isPrefixOf_append_back (apart mark member) chars
  unfold takeMark at took ⊢
  rw [sameFound]
  split at took
  · next mark found =>
    have isFront : mark.toList.isPrefixOf chars = true := by simpa using List.find?_some found
    obtain ⟨rest, rfl⟩ := List.isPrefixOf_iff_prefix.1 isFront
    have dropped (more : List Char) : (mark.toList ++ more).drop mark.length = more := by
      rw [← String.length_toList, List.drop_left]
    rw [dropped] at took
    rw [List.append_assoc, dropped]
    dsimp only at took ⊢
    rw [any_head?_append noDigit]
    split at took
    -- a question mark, a period and a digit are no optional access but a choice
    · next conditional =>
      have isMark : mark = "?." := eq_of_beq (Bool.and_eq_true_iff.1 conditional).1
      cases took
      subst isMark
      rw [if_pos conditional]
      rfl
    · next plain =>
      cases took
      rw [if_neg plain]
  · split at took
    · next c rest =>
      split at took
      · next short =>
        cases took
        rw [List.cons_append]
        dsimp only
        rw [if_pos short]
      · cases took
    · cases took

theorem exists_cons_of_longMarks {mark : String} (member : mark ∈ longMarks) {c : Char}
    {rest : List Char} (front : mark.toList <+: c :: rest) :
    ∃ first others, mark.toList = first :: others ∧ first = c := by
  have nonempty : mark.toList ≠ [] :=
    (by decide : ∀ mark ∈ longMarks, mark.toList ≠ []) mark member
  obtain ⟨first, others, chars⟩ := List.exists_cons_of_ne_nil nonempty
  obtain ⟨more, same⟩ := front
  rw [chars] at same
  exact ⟨first, others, chars, (List.cons.inj same).1⟩

/-- A mark of one character that starts no longer one here. -/
theorem takeMark_of_alone {c : Char} {rest : List Char} (short : shortMarks.contains c = true)
    (alone : ∀ mark ∈ longMarks, ¬ mark.toList <+: c :: rest) :
    takeMark (c :: rest) = some ([c], rest) := by
  have noLong : longMarks.find? (fun mark => mark.toList.isPrefixOf (c :: rest)) = none :=
    List.find?_eq_none.2 fun mark member isFront =>
      alone mark member (List.isPrefixOf_iff_prefix.1 isFront)
  unfold takeMark
  rw [noLong]
  dsimp only
  rw [if_pos short]

theorem takeMark_of_short {c : Char} (short : shortMarks.contains c = true)
    (alone : ∀ mark ∈ longMarks, mark.toList.head? ≠ some c) (rest : List Char) :
    takeMark (c :: rest) = some ([c], rest) := by
  refine takeMark_of_alone short fun mark member front => ?_
  obtain ⟨first, others, chars, rfl⟩ := exists_cons_of_longMarks member front
  exact alone mark member (by rw [chars]; rfl)

/-! ## Inside of more brackets -/

/-- The memory with more brackets open around those that it tells of. -/
def Memory.inside (memory : Memory) (around : List Opening) : Memory :=
  { memory with openings := memory.openings ++ around }

theorem Memory.afterMark_inside {memory next : Memory} {mark : String}
    (remembered : memory.afterMark mark = some next) (around : List Opening) :
    (memory.inside around).afterMark mark = some (next.inside around) := by
  obtain ⟨openings, operandDue, conditionDue⟩ := memory
  unfold afterMark at remembered
  dsimp only at remembered
  split at remembered
  case h_12 =>
    cases remembered
    unfold afterMark
    split <;> simp_all [inside]
  all_goals
    cases remembered
    try rfl

theorem takeToken_append_back {memory next : Memory} {kind : TokenKind}
    {chars taken left back : List Char}
    (took : takeToken memory chars = some (kind, taken, left, next)) (ends : EndsTokens back)
    (around : List Opening) :
    takeToken (memory.inside around) (chars ++ back) =
      some (kind, taken, left ++ back, next.inside around) := by
  have noNamePart := ends.eq_false isNamePart (by decide)
  have noDigit := ends.eq_false Char.isDigit (by decide)
  have noAlpha := ends.eq_false Char.isAlpha (by decide)
  fun_cases takeToken memory chars with
  | case1 => cases took
  | case2 settled rest =>
    cases took
    rfl
  | case3 settled rest =>
    obtain ⟨⟨body, others⟩, tookBody, same⟩ := Option.bind_eq_some_iff.1 took
    cases same
    have tookThere := takeString_append (by decide) tookBody back
    simp only [List.cons_append, takeToken, tookThere]
    rfl
  | case4 settled rest =>
    obtain ⟨⟨body, others⟩, tookBody, same⟩ := Option.bind_eq_some_iff.1 took
    cases same
    have tookThere := takeString_append (by decide) tookBody back
    simp only [List.cons_append, takeToken, tookThere]
    rfl
  -- a `#` and no name behind it
  | case5 rest name others cut empty =>
    simp only [takeToken, cut, empty] at took
    cases took
  | case6 settled rest name others cut nonempty =>
    simp only [takeToken, cut, nonempty] at took
    cases took
    have cutThere : (rest ++ back).span isNamePart = (name, left ++ back) :=
      span_append_back cut (.inr noNamePart)
    simp only [List.cons_append, takeToken, cutThere, nonempty]
    rfl
  | case7 c rest _ _ _ _ isName name others cut =>
    simp only [takeToken, isName, cut] at took
    cases took
    have cutThere : (c :: (rest ++ back)).span isNamePart = (taken, left ++ back) :=
      span_append_back cut (.inr noNamePart)
    rw [List.cons_append]
    simp only [takeToken, isName, cutThere]
    rfl
  | case8 settled c rest _ _ _ _ noName isNumber number others tookNumber =>
    simp only [takeToken, noName, isNumber, tookNumber] at took
    cases took
    have tookThere := takeNumber_append_back tookNumber ends
    rw [← any_head?_append noDigit] at isNumber
    rw [List.cons_append] at tookThere ⊢
    simp only [takeToken, noName, isNumber, tookThere]
    rfl
  -- the body of a regular expression ends by itself, and its flags end as a name does
  | case9 settled c rest _ _ _ _ noName noNumber isSlash =>
    simp only [takeToken, noName, noNumber, isSlash, if_true] at took
    obtain ⟨⟨body, afterBody⟩, tookBody, same⟩ := Option.bind_eq_some_iff.1 took
    cases same
    have tookThere := takeRegex_append tookBody back
    have cutThere : (afterBody ++ back).span Char.isAlpha =
        ((afterBody.span Char.isAlpha).1, (afterBody.span Char.isAlpha).2 ++ back) :=
      span_append_back Prod.mk.eta.symm (.inr noAlpha)
    rw [← any_head?_append noDigit] at noNumber
    have slashThere : (c == '/' && (memory.inside around).operandDue) = true := isSlash
    rw [List.cons_append]
    simp only [takeToken, noName, noNumber, slashThere, tookThere, if_true, Bool.false_eq_true,
      if_false, Option.bind_eq_bind, Option.bind_some, cutThere]
    rfl
  -- the hole is the innermost opening, so those around it stay
  | case10 c rest _ _ _ _ noName noNumber noSlash closes =>
    simp only [takeToken, noName, noNumber, noSlash, closes] at took
    cases took
    obtain ⟨openings, operandDue, conditionDue⟩ := memory
    obtain ⟨brace, hole⟩ := Bool.and_eq_true_iff.1 closes
    obtain rfl := eq_of_beq brace
    dsimp only at hole
    split at hole
    · rfl
    · cases hole
  | case11 c rest _ _ _ _ noName noNumber noSlash noHole =>
    simp only [takeToken, noName, noNumber, noSlash, noHole] at took
    obtain ⟨⟨mark, others⟩, tookMark, remembered⟩ := Option.bind_eq_some_iff.1 took
    obtain ⟨memoryThen, after, same⟩ := Option.bind_eq_some_iff.1 remembered
    cases same
    have tookThere := takeMark_append_back tookMark ends
    have afterThere := Memory.afterMark_inside after around
    rw [← any_head?_append noDigit] at noNumber
    obtain ⟨openings, operandDue, conditionDue⟩ := memory
    have slashThere : ¬(c == '/' && operandDue) = true := noSlash
    rw [List.cons_append] at tookThere ⊢
    by_cases brace : c = '\x7d'
    · subst brace
      -- a brace without an opening is no mark, so it does not close one of the brackets around
      cases openings with
      | nil =>
        rw [takeMark_of_short (by decide) (by decide)] at tookMark
        cases tookMark
        cases after
      | cons innermost outer =>
        cases innermost
        case hole => simp at noHole
        all_goals
          simp only [takeToken, Memory.inside, noName, noNumber, slashThere, List.cons_append]
            at afterThere ⊢
          simp [tookThere, afterThere]
    · have brace : (c == '\x7d') = false := beq_eq_false_iff_ne.2 brace
      simp only [takeToken, Memory.inside, noName, noNumber, slashThere, brace] at afterThere ⊢
      simp only [tookThere, afterThere, Bool.false_and, Bool.false_eq_true, if_false,
        Option.bind_eq_bind, Option.bind_some]

/-- In a template a token ends by itself, unless it is plain text up to the end. -/
theorem takeTemplateToken_append_back {memory next : Memory} {kind : TokenKind}
    {chars taken left : List Char}
    (took : takeTemplateToken memory chars = some (kind, taken, left, next))
    (goesOn : kind = .templateText → left ≠ []) (back : List Char) (around : List Opening) :
    takeTemplateToken (memory.inside around) (chars ++ back) =
      some (kind, taken, left ++ back, next.inside around) := by
  fun_cases takeTemplateToken memory chars with
  | case1 => cases took
  | case2 rest =>
    cases took
    rfl
  | case3 rest =>
    cases took
    rfl
  | case4 escaped rest =>
    cases took
    rfl
  | case5 chars text others cut empty =>
    simp only [takeTemplateToken, cut, empty] at took
    cases took
  | case6 chars text others cut nonempty noEnd noTick noHole noEscape =>
    simp only [takeTemplateToken, cut, nonempty] at took
    cases took
    have cutThere := takeTemplateText_append_back cut (goesOn rfl) back
    match chars with
    | [] => exact absurd rfl noEnd
    -- plain text of one character is the whole text, and then nothing goes on
    | [only] =>
      have split := takeTemplateText_append [only]
      rw [cut] at split
      rw [List.append_eq_singleton_iff] at split
      rcases split with ⟨none, _⟩ | ⟨_, none⟩
      · exact absurd (List.isEmpty_iff.2 none) nonempty
      · exact absurd none (goesOn rfl)
    -- two characters show that neither an escape nor a hole opens here
    | first :: second :: rest =>
      rw [List.cons_append, List.cons_append] at cutThere ⊢
      unfold takeTemplateToken
      split
      · next same => cases same
      · next same =>
        cases same
        exact (noTick _ rfl).elim
      · next same =>
        cases same
        exact (noHole _ rfl).elim
      · next same =>
        cases same
        exact (noEscape _ _ rfl).elim
      · rw [cutThere]
        dsimp only
        rw [if_neg nonempty]

/-! ## Gaps -/

theorem skipGap_nil {fuel : Nat} {comments : List Comment} {lineBreak : Bool} {gap : Gap}
    {offset : Nat} {start : Position}
    (skipped : skipGap fuel comments lineBreak ⟨offset, []⟩ = some (gap, start)) :
    start.chars = [] := by
  cases fuel with
  | zero => cases skipped
  | succ fuel =>
    cases skipped
    rfl

theorem skipGap_space {fuel offset : Nat} {comments : List Comment} {lineBreak : Bool} {c : Char}
    {rest taken left : List Char} (space : isSpace c = true)
    (cut : (c :: rest).span isSpace = (taken, left)) :
    skipGap (fuel + 1) comments lineBreak ⟨offset, c :: rest⟩ =
      skipGap fuel comments (lineBreak || taken.contains '\n') ⟨offset + width taken, left⟩ := by
  rw [skipGap]
  dsimp only
  split
  · next same =>
    cases same
    exact absurd space (by decide)
  · next same =>
    cases same
    exact absurd space (by decide)
  · next same =>
    cases same
    rw [if_pos space, cut]
    rfl
  · next same => cases same

theorem skipGap_token {fuel offset : Nat} {comments : List Comment} {lineBreak : Bool} {c : Char}
    {rest : List Char} (noSpace : ¬isSpace c = true)
    (noComment : c = '/' → ∀ next ∈ rest.head?, next ≠ '/' ∧ next ≠ '*') :
    skipGap (fuel + 1) comments lineBreak ⟨offset, c :: rest⟩ =
      some (⟨comments, lineBreak⟩, ⟨offset, c :: rest⟩) := by
  rw [skipGap]
  dsimp only
  split
  · next same =>
    cases same
    exact absurd rfl (noComment rfl _ rfl).1
  · next same =>
    cases same
    exact absurd rfl (noComment rfl _ rfl).2
  · next same =>
    cases same
    rw [if_neg noSpace]
  · next same => cases same

theorem length_lt_of_span {holds : Char → Bool} {c : Char} {rest taken left : List Char}
    (first : holds c = true) (cut : (c :: rest).span holds = (taken, left)) :
    left.length < (c :: rest).length := by
  rw [← append_of_span cut, List.length_append]
  exact Nat.lt_add_of_pos_left (List.length_pos_iff.2 (ne_nil_of_span first cut))

/-- A gap is skipped alike at any place, with any fuel that is enough, and in front of more. -/
theorem exists_skipGap_append {fuel : Nat} {comments : List Comment} {lineBreak : Bool} {gap : Gap}
    {position start : Position} {back : List Char}
    (skipped : skipGap fuel comments lineBreak position = some (gap, start))
    (ends : EndsTokens back) (goesOn : start.chars ≠ [] ∨ back = []) :
    ∀ {fuelThen : Nat} (commentsThen : List Comment) (lineBreakThen : Bool) (offset : Nat),
      position.chars.length < fuelThen → ∃ gapThen offsetThen,
        skipGap fuelThen commentsThen lineBreakThen ⟨offset, position.chars ++ back⟩ =
          some (gapThen, ⟨offsetThen, start.chars ++ back⟩) := by
  -- blanks that reach the end of the piece could go on behind it
  have stops {fuel : Nat} {comments : List Comment} {lineBreak : Bool} {offset : Nat}
      {left : List Char} {holds : Char → Bool}
      (skipped : skipGap fuel comments lineBreak ⟨offset, left⟩ = some (gap, start)) :
      left ≠ [] ∨ ∀ c ∈ back.head?, holds c = false := by
    refine goesOn.imp (fun nonempty none => nonempty ?_) fun none => by simp [none]
    subst none
    exact skipGap_nil skipped
  fun_induction skipGap fuel comments lineBreak position with
  | case1 => cases skipped
  | case2 fuel comments lineBreak position rest opened taken left cut after inductionHypothesis =>
    intro fuelThen commentsThen lineBreakThen offset enough
    obtain ⟨fuelLeft, rfl⟩ := Nat.exists_eq_add_one_of_ne_zero (Nat.ne_zero_of_lt enough)
    rw [opened] at cut enough ⊢
    have cutThere := span_append_back cut (stops skipped)
    have shorter := length_lt_of_span (by decide) cut
    rw [List.cons_append, List.cons_append] at cutThere ⊢
    simp only [skipGap, cutThere]
    exact inductionHypothesis skipped _ _ _ (show left.length < fuelLeft by omega)
  | case3 fuel comments lineBreak position rest opened inductionHypothesis =>
    intro fuelThen commentsThen lineBreakThen offset enough
    obtain ⟨fuelLeft, rfl⟩ := Nat.exists_eq_add_one_of_ne_zero (Nat.ne_zero_of_lt enough)
    obtain ⟨⟨taken, left⟩, tookBody, continued⟩ := Option.bind_eq_some_iff.1 skipped
    have tookThere := takeBlockComment_append tookBody back
    have shorter : left.length ≤ rest.length := by
      rw [← append_of_takeBlockComment tookBody, List.length_append]
      exact Nat.le_add_left _ _
    rw [opened] at enough ⊢
    rw [List.length_cons, List.length_cons] at enough
    simp only [List.cons_append, skipGap, tookThere, Option.bind_eq_bind, Option.bind_some]
    exact inductionHypothesis taken left continued _ _ _ (show left.length < fuelLeft by omega)
  | case4 fuel comments lineBreak position c rest noLine noBlock opened space taken left cut
      inductionHypothesis =>
    intro fuelThen commentsThen lineBreakThen offset enough
    obtain ⟨fuelLeft, rfl⟩ := Nat.exists_eq_add_one_of_ne_zero (Nat.ne_zero_of_lt enough)
    rw [opened] at cut enough ⊢
    have cutThere := span_append_back cut (stops skipped)
    have shorter := length_lt_of_span space cut
    rw [List.cons_append] at cutThere ⊢
    rw [skipGap_space space cutThere]
    exact inductionHypothesis skipped _ _ _ (show left.length < fuelLeft by omega)
  | case5 fuel comments lineBreak position c rest noLine noBlock opened noSpace =>
    intro fuelThen commentsThen lineBreakThen offset enough
    obtain ⟨fuelLeft, rfl⟩ := Nat.exists_eq_add_one_of_ne_zero (Nat.ne_zero_of_lt enough)
    cases skipped
    rw [opened] at enough ⊢
    -- a slash at the very end would open a comment together with what stands behind it
    have noMark := ends.eq_false (fun c => c == '/' || c == '*') (by decide)
    refine ⟨_, _, skipGap_token noSpace ?_⟩
    rintro rfl next isNext
    cases rest with
    | nil => simpa using noMark next isNext
    | cons second rest =>
      cases isNext
      exact ⟨fun same => noLine rest rfl (by rw [same]),
        fun same => noBlock rest rfl (by rw [same])⟩
  | case6 fuel comments lineBreak position ended =>
    intro fuelThen commentsThen lineBreakThen offset enough
    obtain ⟨fuelLeft, rfl⟩ := Nat.exists_eq_add_one_of_ne_zero (Nat.ne_zero_of_lt enough)
    cases skipped
    obtain rfl : back = [] := goesOn.resolve_left (fun nonempty => nonempty ended)
    rw [ended]
    exact ⟨_, _, rfl⟩

end CreatorMigration.Token
