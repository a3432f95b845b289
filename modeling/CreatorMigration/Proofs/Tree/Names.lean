import CreatorMigration.Proofs.Text.Lowering
import CreatorMigration.Proofs.Tree.Lexemes

/-! # Names in a text

What a text that reads as names with dots between them is cut down to by its last dot.

* `Token.Reads.isName`: what a word of a text consists of.
* `Token.readsAs_of_isName`: a name reads as one word, also in lower case (`IsName.decapitalize`).
* `Token.factoryName_eq_iff`: the factory of a dotted name is that of its last name exactly when
  nothing but blanks stands between that name and the last dot.
-/

namespace CreatorMigration.Token

/-- The characters of a name. -/
structure IsName (chars : List Char) : Prop where
  nonempty : chars ≠ []
  first : ∀ c ∈ chars.head?, isNameStart c = true
  parts : ∀ c ∈ chars, isNamePart c = true

theorem isNamePart_of_isNameStart {c : Char} (start : isNameStart c = true) :
    isNamePart c = true := by
  rw [isNameStart, Bool.and_eq_true] at start
  exact start.1

theorem isName_of_takeToken {memory next : Memory} {chars taken left : List Char}
    (took : takeToken memory chars = some (.word, taken, left, next)) : IsName taken := by
  unfold takeToken at took
  dsimp only at took
  split at took
  case h_1 => cases took
  case h_2 => cases took
  case h_3 =>
    obtain ⟨_, _, same⟩ := Option.bind_eq_some_iff.1 took
    cases same
  case h_4 =>
    obtain ⟨_, _, same⟩ := Option.bind_eq_some_iff.1 took
    cases same
  case h_5 =>
    split at took
    · cases took
    · cases took
  case h_6 c rest _ _ _ _ =>
    split at took
    · next start =>
      rw [List.span_eq_takeWhile_dropWhile] at took
      cases took
      have part := isNamePart_of_isNameStart start
      rw [List.takeWhile_cons_of_pos part]
      refine ⟨List.cons_ne_nil _ _, ?_, ?_⟩
      · rintro d ⟨⟩
        exact start
      · rw [List.forall_mem_cons]
        exact ⟨part, fun d member => List.mem_takeWhile_imp member⟩
    · split at took
      · cases took
      · split at took
        · obtain ⟨_, _, same⟩ := Option.bind_eq_some_iff.1 took
          cases same
        -- whether a hole is open is asked first
        · generalize (c == '\x7d' && _) = closes at took
          cases closes with
          | true => cases took
          | false =>
            obtain ⟨_, _, marked⟩ := Option.bind_eq_some_iff.1 took
            obtain ⟨_, _, same⟩ := Option.bind_eq_some_iff.1 marked
            cases same

theorem kind_of_takeTemplateToken {memory next : Memory} {chars taken left : List Char}
    {kind : TokenKind} (took : takeTemplateToken memory chars = some (kind, taken, left, next)) :
    kind ≠ .word := by
  unfold takeTemplateToken at took
  rintro rfl
  split at took
  case h_5 =>
    dsimp only at took
    split at took <;> cases took
  all_goals cases took

theorem Reads.isName {stage final : Stage} {chars rest : List Char} {lexemes : List Lexeme}
    (reads : Reads stage chars lexemes final rest) {name : String}
    (member : ⟨.word, name⟩ ∈ lexemes) : IsName name.toList := by
  induction reads with
  | done => cases member
  | token skips took _ inductionHypothesis =>
    rcases List.mem_cons.1 member with same | later
    · cases same
      rw [String.toList_ofList]
      unfold Stage.take at took
      split at took
      · exact absurd rfl (kind_of_takeTemplateToken took)
      · exact isName_of_takeToken took
    · exact inductionHypothesis later

/-- Behind the last lexeme stands what is left. -/
theorem Reads.exists_front {stage final : Stage} {chars rest : List Char} {lexemes : List Lexeme}
    {last : Lexeme} (reads : Reads stage chars lexemes final rest)
    (isLast : lexemes.getLast? = some last) :
    ∃ front, chars = front ++ last.text.toList ++ rest := by
  induction reads with
  | done => cases isLast
  | @token stage final chars start taken left rest kind next lexemes skips took others
      inductionHypothesis =>
    obtain ⟨gap, rfl⟩ := skips.suffix
    obtain ⟨-, rfl⟩ := takes_of_take took
    cases lexemes with
    | nil =>
      cases others
      cases isLast
      exact ⟨gap, by simp⟩
    | cons second more =>
      rw [List.getLast?_cons_cons] at isLast
      obtain ⟨front, same⟩ := inductionHypothesis isLast
      exact ⟨gap ++ taken ++ front, by rw [same]; simp only [List.append_assoc]⟩

theorem readsAs_of_isName {name : String} (isName : IsName name.toList) :
    ReadsAs name [⟨.word, name⟩] := by
  obtain ⟨c, rest, chars⟩ := List.exists_cons_of_ne_nil isName.nonempty
  have start : isNameStart c = true := isName.first c (by rw [chars]; rfl)
  have part := isNamePart_of_isNameStart start
  have noMark : c ∉ ['\x60', '\x27', '\x22', '#', '/'] := by
    intro member
    have marks : (['\x60', '\x27', '\x22', '#', '/'].all fun mark => !isNameStart mark) = true := by
      decide
    simpa [start] using List.all_eq_true.1 marks c member
  have noSpace : isSpace c = false := by
    rw [isNamePart, Bool.and_eq_true, Bool.and_eq_true] at part
    simpa using part.1.2
  have skips : Stage.Skips false (c :: rest) (c :: rest) :=
    Stage.skips_nothing noSpace (fun slash => noMark (by simp [slash])) rest
  have cut : (c :: rest).span isNamePart = (c :: rest, []) := by
    rw [List.span_eq_takeWhile_dropWhile, ← chars, List.takeWhile_eq_self_iff.2 isName.parts,
      List.dropWhile_eq_nil_iff.2 isName.parts]
  have took : ∃ next, takeToken ⟨[], true, false⟩ (c :: rest) = some (.word, c :: rest, [], next) ∧
      next.openings = [] := by
    unfold takeToken
    dsimp only
    split
    case h_1 same => cases same
    case h_6 same =>
      cases same
      rw [if_pos start, cut]
      exact ⟨_, rfl, rfl⟩
    all_goals
      next same =>
        cases same
        simp at noMark
  obtain ⟨next, took, closed⟩ := took
  have reads : Reads .fresh (c :: rest) [⟨.word, String.ofList (c :: rest)⟩] ⟨next, false⟩ [] :=
    .token skips took (.done _ _)
  rw [← chars, String.ofList_toList] at reads
  exact ⟨next, [], reads, closed, by simp⟩

theorem IsName.decapitalize {name : String} (isName : IsName name.toList) :
    IsName (Text.decapitalize name).toList := by
  rw [Text.decapitalize, String.toList_ofList]
  obtain ⟨c, rest, chars⟩ := List.exists_cons_of_ne_nil isName.nonempty
  have start : isNameStart c = true := isName.first c (by rw [chars]; rfl)
  have lowered : ∀ d ∈ Text.lowerChar c, isNameStart d = true := by
    intro d member
    rcases Text.eq_or_isLowered c with same | all
    · rw [same, List.mem_singleton] at member
      rwa [member]
    · exact (all d member).letter
  rw [chars, Text.lowerFirstOf]
  refine ⟨by simp [Text.lowerChar_ne_nil], fun d isFirst => ?_, fun d member => ?_⟩
  · rw [List.head?_append, List.head?_eq_some_head (Text.lowerChar_ne_nil c)] at isFirst
    cases isFirst
    exact lowered _ (List.head_mem _)
  · rcases List.mem_append.1 member with first | later
    · exact isNamePart_of_isNameStart (lowered d first)
    · exact isName.parts d (by rw [chars]; exact List.mem_cons_of_mem c later)

/-! ## Dotted names -/

/-- The lexemes of a name or of names with dots between them, and the last of the names. For the
scanner the control character U+0085 is part of a name, but it is cut off as a blank. -/
inductive EndsInName : List Lexeme → String → Prop where
  | name {last : String} (trimmed : Text.IsTrimmed last.toList) : EndsInName [⟨.word, last⟩] last
  | access {qualifier last : String} {rest : List Lexeme} (behind : EndsInName rest last) :
      EndsInName (⟨.word, qualifier⟩ :: markLexeme '.' :: rest) last

/-- The text is an identifier or a dotted name, and this is its last segment. What starts with `new`
or `import` is neither of them. -/
def IsDottedName (text last : String) : Prop :=
  ∃ lexemes, ReadsAs text lexemes ∧ EndsInName lexemes last ∧
    lexemes.head? ∉ [some ⟨.word, "new"⟩, some ⟨.word, "import"⟩]

theorem EndsInName.getLast? {lexemes : List Lexeme} {last : String}
    (ends : EndsInName lexemes last) :
    lexemes.getLast? = some ⟨.word, last⟩ ∧ Text.IsTrimmed last.toList := by
  induction ends with
  | name trimmed => exact ⟨rfl, trimmed⟩
  | @access qualifier last rest behind inductionHypothesis =>
    obtain ⟨isLast, trimmed⟩ := inductionHypothesis
    rw [List.getLast?_cons, List.getLast?_cons, isLast]
    exact ⟨rfl, trimmed⟩

/-- Whatever stands behind the first name is a dot. -/
theorem EndsInName.eq_dot {lexemes : List Lexeme} {last : String} (ends : EndsInName lexemes last) :
    ∀ second ∈ lexemes[1]?, second = markLexeme '.' := by
  cases ends with
  | name =>
    intro second member
    cases member
  | access behind =>
    rintro second ⟨⟩
    rfl

/-- A text has one last segment at most. -/
theorem IsDottedName.unique {text last other : String} (dotted : IsDottedName text last)
    (dottedOther : IsDottedName text other) : last = other := by
  obtain ⟨lexemes, reads, ends, -⟩ := dotted
  obtain ⟨others, readsOther, endsOther, -⟩ := dottedOther
  obtain rfl := reads.unique readsOther
  have same := ends.getLast?.1.symm.trans endsOther.getLast?.1
  exact congrArg Lexeme.text (Option.some.inj same)

theorem IsDottedName.isName {text last : String} (dotted : IsDottedName text last) :
    IsName last.toList := by
  obtain ⟨lexemes, ⟨_, _, reads, _⟩, ends, -⟩ := dotted
  exact reads.isName (List.mem_of_getLast? ends.getLast?.1)

theorem IsName.isUndotted {name : String} (isName : IsName name.toList) : IsUndotted name :=
  fun dot => absurd (isName.parts '.' dot) (by decide)

/-- What stands behind the last dot of a dotted name holds its last segment. -/
theorem IsDottedName.exists_unqualified {text last : String} (dotted : IsDottedName text last) :
    ∃ front back, (unqualified text).toList = front ++ last.toList ++ back := by
  have isName := dotted.isName
  obtain ⟨lexemes, ⟨_, left, reads, _, spaces⟩, ends, -⟩ := dotted
  obtain ⟨isLast, trimmed⟩ := ends.getLast?
  obtain ⟨front, chars⟩ := reads.exists_front isLast
  have undotted : '.' ∉ last.toList ++ left := by
    rw [List.mem_append, not_or]
    exact ⟨isName.isUndotted, fun dot => absurd (spaces '.' dot) (by decide)⟩
  have behind : Text.afterLastChars '.' text.toList =
      Text.afterLastChars '.' front ++ last.toList ++ left := by
    rw [chars, List.append_assoc, List.append_assoc]
    exact Text.afterLastChars_append_of_notMem front undotted
  rw [unqualified, Text.trim, String.toList_ofList, Text.afterLast, String.toList_ofList, behind,
    Text.trimChars_append _ _ trimmed isName.nonempty]
  exact ⟨_, _, rfl⟩

theorem IsDottedName.factoryName_last {text last : String} (dotted : IsDottedName text last) :
    factoryName last = Text.decapitalize last := by
  have trimmed : Text.IsTrimmed last.toList := by
    obtain ⟨_, _, ends, _⟩ := dotted
    exact ends.getLast?.2
  rw [factoryName, unqualified_eq_self dotted.isName.isUndotted trimmed]

/-- The factory of a dotted name is that of its last segment exactly when this is what stands
behind its last dot, with no comment in front of it. -/
theorem IsDottedName.factoryName_eq_iff {text last : String} (dotted : IsDottedName text last) :
    factoryName text = factoryName last ↔ unqualified text = last := by
  rw [dotted.factoryName_last, factoryName]
  refine ⟨fun same => ?_, fun same => by rw [same]⟩
  obtain ⟨front, back, chars⟩ := dotted.exists_unqualified
  have lowered := congrArg String.toList same
  rw [Text.decapitalize, Text.decapitalize, String.toList_ofList, String.toList_ofList,
    chars] at lowered
  obtain ⟨rfl, rfl⟩ := Text.append_nil_of_lowerFirstOf dotted.isName.nonempty lowered
  rw [List.nil_append, List.append_nil] at chars
  exact String.toList_injective chars

/-- The factory of a dotted name goes by a name that reads as one word. -/
theorem IsDottedName.readsAs_factoryName {text last : String} (dotted : IsDottedName text last) :
    ReadsAs (factoryName last) [⟨.word, factoryName last⟩] := by
  rw [dotted.factoryName_last]
  exact readsAs_of_isName dotted.isName.decapitalize

end CreatorMigration.Token
