import CreatorMigration.Tree.Grammar.Name

/-! # Tokens of shapes

The grammar puts the tokens that it takes into its shapes one by one and in their order, so each
leaf stands for the token that was read for it.

* `Shape.Covers` says so of a shape, and what the shapes of identifiers and of unions look like.
* `Grammar.Reads` says it of all that a parser reads. The parsers of the grammar are put together by
  few combinators, and there is one lemma for each of these.
-/

namespace CreatorMigration

/-- The token without the comments in front of it. -/
def Token.bare (token : Token) : Token := { token with comments := [] }

/-- What a token may be: no union, and no comment since these are kept with the tokens. -/
def Kind.isOfToken (kind : Kind) : Bool := kind != .unionType && kind != .comment

/-- What a group of tokens may be, unions apart. -/
def Kind.isPlain (kind : Kind) : Bool := kind.isOfToken && !kind.isAnyIdentifier

/-- What a named node may be. -/
def Kind.isNamed (kind : Kind) : Bool := kind != .token && kind != .comment

theorem Kind.isOfToken_iff {kind : Kind} :
    kind.isOfToken = true ↔ kind ≠ .unionType ∧ kind ≠ .comment := by
  simp [isOfToken]

theorem Kind.isPlain_iff {kind : Kind} :
    kind.isPlain = true ↔ kind.isOfToken = true ∧ kind.isAnyIdentifier = false := by
  simp [isPlain]

theorem Kind.isNamed_iff {kind : Kind} :
    kind.isNamed = true ↔ kind ≠ .token ∧ kind ≠ .comment := by
  simp [isNamed]

/-- Each item takes its tokens where the one in front of it has left them. -/
inductive Tiles {α : Type} (covers : α → List Token → List Token → Prop) :
    List α → List Token → List Token → Prop where
  | nil {tokens : List Token} : Tiles covers [] tokens tokens
  | cons {first : α} {others : List α} {tokens middle rest : List Token}
      (inFront : covers first tokens middle) (behind : Tiles covers others middle rest) :
      Tiles covers (first :: others) tokens rest

namespace Tiles

variable {α β : Type} {covers : α → List Token → List Token → Prop}
  {tokens middle rest : List Token}

theorem single {item : α} (own : covers item tokens rest) : Tiles covers [item] tokens rest :=
  .cons own .nil

theorem append {items others : List α} (inFront : Tiles covers items tokens middle)
    (behind : Tiles covers others middle rest) : Tiles covers (items ++ others) tokens rest := by
  induction inFront with
  | nil => exact behind
  | cons first _ inductionHypothesis => exact .cons first (inductionHypothesis behind)

theorem flatten {lists : List (List α)} (each : Tiles (Tiles covers) lists tokens rest) :
    Tiles covers lists.flatten tokens rest := by
  induction each with
  | nil => exact .nil
  | cons first _ inductionHypothesis => exact first.append inductionHypothesis

theorem forall_mem {property : α → Prop} {items : List α}
    (each : Tiles (fun item _ _ => property item) items tokens rest) :
    ∀ item ∈ items, property item := by
  induction each with
  | nil => simp
  | cons first _ inductionHypothesis => exact List.forall_mem_cons.2 ⟨first, inductionHypothesis⟩

end Tiles

/-- The shape stands for a named node. -/
def Shape.IsNamed (shape : Shape) : Prop :=
  ∃ kind, shape.hasKind kind = true ∧ kind.isNamed = true

theorem Shape.isNamed_group {kind : Kind} (role : Option Role) (parts : List Shape)
    (named : kind.isNamed = true) : (Shape.group kind role parts).IsNamed :=
  ⟨kind, beq_self_eq_true kind, named⟩

theorem Shape.isNamed_leaf {kind : Kind} (role : Option Role)
    (named : kind.isNamed = true) : (Shape.leaf kind role).IsNamed :=
  ⟨kind, beq_self_eq_true kind, named⟩

/-- The leaves of the shape are the tokens in front of `rest`, of which the end of a unit is none. An
identifier is a single token, and a bar stands in front of the last member of a union. -/
inductive Shape.Covers : Shape → List Token → List Token → Prop where
  | leaf {kind : Kind} {role : Option Role} {token : Token} {rest : List Token}
      (ofToken : kind.isOfToken = true) : Covers (.leaf kind role) (token :: rest) rest
  | missingSemicolon {tokens : List Token} : Covers .missingSemicolon tokens tokens
  | group {kind : Kind} {role : Option Role} {parts : List Shape} {tokens rest : List Token}
      (plain : kind.isPlain = true) (inside : Tiles Covers parts tokens rest) :
      Covers (.group kind role parts) tokens rest
  | leadingBar {role : Option Role} {member : Shape} {bar : Token} {middle rest : List Token}
      (isBar : bar.isPunctuation "|" = true) (behind : Covers member middle rest) :
      Covers (.group .unionType role [.leaf .token none, member]) (bar :: middle) rest
  | union {role : Option Role} {members member : Shape} {bar : Token}
      {tokens middle rest : List Token} (named : members.IsNamed)
      (inFront : Covers members tokens (bar :: middle))
      (isBar : bar.isPunctuation "|" = true) (behind : Covers member middle rest) :
      Covers (.group .unionType role [members, .leaf .token none, member]) tokens rest

/-- The parts of a group cover what the group does. -/
theorem Shape.Covers.tiles {kind : Kind} {role : Option Role} {parts : List Shape}
    {tokens rest : List Token} (covers : (Shape.group kind role parts).Covers tokens rest) :
    Tiles Covers parts tokens rest := by
  cases covers with
  | group _ inside => exact inside
  | leadingBar _ behind => exact .cons (.leaf rfl) (.single behind)
  | union _ inFront _ behind => exact .cons inFront (.cons (.leaf rfl) (.single behind))

theorem Shape.Covers.kind_of_group {kind : Kind} {role : Option Role} {parts : List Shape}
    {tokens rest : List Token} (covers : (Shape.group kind role parts).Covers tokens rest) :
    kind.isAnyIdentifier = false ∧ kind ≠ .comment := by
  cases covers with
  | group plain =>
    obtain ⟨ofToken, noIdentifier⟩ := Kind.isPlain_iff.1 plain
    exact ⟨noIdentifier, (Kind.isOfToken_iff.1 ofToken).2⟩
  | leadingBar => decide
  | union => decide

theorem Shape.Covers.kind_of_leaf {kind : Kind} {role : Option Role} {tokens rest : List Token}
    (covers : (Shape.leaf kind role).Covers tokens rest) :
    kind ≠ .unionType ∧ kind ≠ .comment := by
  cases covers with
  | leaf ofToken => exact Kind.isOfToken_iff.1 ofToken

theorem Shape.Covers.withRole {shape : Shape} {tokens rest : List Token}
    (covers : shape.Covers tokens rest) (role : Role) :
    (shape.withRole role).Covers tokens rest := by
  cases covers with
  | leaf ofToken => exact .leaf ofToken
  | missingSemicolon => exact .missingSemicolon
  | group plain inside => exact .group plain inside
  | leadingBar isBar behind => exact .leadingBar isBar behind
  | union named inFront isBar behind => exact .union named inFront isBar behind

namespace Grammar

open Shape (Covers)

/-! ## What a parser reads -/

/-- What a parser takes off the front of the tokens is covered by what it answers. -/
def Reads {α : Type} (covers : α → List Token → List Token → Prop) (parser : Parser α) : Prop :=
  ∀ tokens answer rest, parser tokens = some (answer, rest) →
    covers answer (tokens.map Token.bare) (rest.map Token.bare)

/-- An answer that covers its tokens together with what was read in front of them. -/
def Behind {α : Type} (inFront : List Token → List Token → Prop)
    (covers : α → List Token → List Token → Prop) (answer : α) (middle rest : List Token) : Prop :=
  ∀ tokens, inFront tokens middle → covers answer tokens rest

section

variable {α β : Type} {covers : α → List Token → List Token → Prop}
  {coversThen : β → List Token → List Token → Prop} {parser other : Parser α}

theorem reads_pure {value : α} (holds : ∀ tokens, covers value tokens tokens) :
    Reads covers (pure value : Parser α) := by
  intro tokens answer rest read
  cases read
  exact holds _

theorem reads_failure : Reads covers (failure : Parser α) := by
  intro tokens answer rest read
  cases read

theorem Reads.bind {next : α → Parser β} (first : Reads covers parser)
    (second : ∀ answer, Reads (Behind (covers answer) coversThen) (next answer)) :
    Reads coversThen (parser >>= next) := by
  intro tokens answer rest read
  obtain ⟨⟨between, left⟩, readFirst, readSecond⟩ := Option.bind_eq_some_iff.1 read
  exact second between _ _ _ readSecond _ (first _ _ _ readFirst)

theorem Reads.map {change : α → β} (first : Reads covers parser)
    (changes : ∀ answer tokens rest, covers answer tokens rest →
      coversThen (change answer) tokens rest) : Reads coversThen (change <$> parser) := by
  rw [map_eq_pure_bind]
  exact first.bind fun answer => reads_pure fun _ _ covered => changes answer _ _ covered

theorem Reads.orElse {alternative : Unit → Parser α} (first : Reads covers parser)
    (second : Reads covers (alternative ())) :
    Reads covers (HOrElse.hOrElse parser alternative) := by
  intro tokens answer rest read
  cases readFirst : parser tokens with
  | none =>
    refine second tokens answer rest ?_
    simpa [HOrElse.hOrElse, OrElse.orElse, Alternative.orElse, StateT.orElse, readFirst] using read
  | some found =>
    refine first tokens answer rest (readFirst.trans ?_)
    simpa [HOrElse.hOrElse, OrElse.orElse, Alternative.orElse, StateT.orElse, readFirst] using read

theorem Reads.guarded {condition : Bool} (first : Reads covers parser) :
    Reads covers (guarded condition parser) := by
  unfold Grammar.guarded
  split
  · exact first
  · exact reads_failure

theorem Reads.ite {condition : Prop} [Decidable condition] (first : Reads covers parser)
    (second : Reads covers other) : Reads covers (if condition then parser else other) := by
  split
  · exact first
  · exact second

/-- Two ways to read what comes next, with the same continuation. -/
theorem Reads.branch {condition : Prop} [Decidable condition] {next : α → Parser β}
    (first : Reads covers parser) (second : Reads covers other)
    (rest : ∀ answer, Reads (Behind (covers answer) coversThen) (next answer)) :
    Reads coversThen (if condition then parser >>= next else other >>= next) :=
  (first.bind rest).ite (second.bind rest)

/-! ## Looking ahead -/

/-- The parser leaves all tokens where they are. -/
def Looks (parser : Parser α) : Prop :=
  ∀ tokens answer rest, parser tokens = some (answer, rest) → rest = tokens

theorem looks_peek : Looks peek := by
  intro tokens answer rest read
  cases read
  rfl

theorem looks_check (holds : Token → Bool) (depth : Nat) : Looks (check holds depth) := by
  intro tokens answer rest read
  cases read
  rfl

theorem looks_behindBrackets (depth : Nat) : Looks (behindBrackets depth) := by
  intro tokens answer rest read
  cases read
  rfl

theorem looks_pure (value : α) : Looks (pure value : Parser α) := by
  intro tokens answer rest read
  cases read
  rfl

theorem Looks.bind {next : α → Parser β} (first : Looks parser)
    (second : ∀ answer, Looks (next answer)) : Looks (parser >>= next) := by
  intro tokens answer rest read
  obtain ⟨⟨between, left⟩, readFirst, readSecond⟩ := Option.bind_eq_some_iff.1 read
  exact (second between _ _ _ readSecond).trans (first _ _ _ readFirst)

/-- What is seen ahead may not matter. -/
theorem Looks.then {next : α → Parser β} (looks : Looks parser)
    (second : ∀ answer, Reads coversThen (next answer)) : Reads coversThen (parser >>= next) := by
  intro tokens answer rest read
  obtain ⟨⟨between, left⟩, readFirst, readSecond⟩ := Option.bind_eq_some_iff.1 read
  obtain rfl := looks _ _ _ readFirst
  exact second between _ _ _ readSecond

/-! ## Repetitions -/

theorem Reads.many (each : Reads covers parser) : Reads (Tiles covers) (many parser) := by
  have goes (fuel : Nat) : Reads (Tiles covers) (repeatWhile parser fuel) := by
    induction fuel with
    | zero =>
      intro tokens answers rest read
      cases read
      exact .nil
    | succ fuel inductionHypothesis =>
      intro tokens answers rest read
      rw [repeatWhile] at read
      split at read
      · next first left readFirst =>
        obtain ⟨⟨others, last⟩, readOthers, same⟩ := Option.map_eq_some_iff.1 read
        cases same
        exact .cons (each _ _ _ readFirst) (inductionHypothesis _ _ _ readOthers)
      · cases read
        exact .nil
  exact fun tokens answers rest read => goes _ tokens answers rest read

/-- The items in front of the last, and then the last, which another parser reads. -/
theorem Reads.manyUntil_concat {finish : Parser α} {coversLast : α → List Token → List Token → Prop}
    (each : Reads covers parser) (last : Reads coversLast finish) :
    Reads (fun answers tokens rest => ∃ front ending middle, answers = front ++ [ending] ∧
      Tiles covers front tokens middle ∧ coversLast ending middle rest)
      (manyUntil parser finish) := by
  have goes (fuel : Nat) : Reads (fun answers tokens rest => ∃ front ending middle,
      answers = front ++ [ending] ∧ Tiles covers front tokens middle ∧
        coversLast ending middle rest) (manyUntilGo parser finish fuel) := by
    induction fuel with
    | zero =>
      intro tokens answers rest read
      cases read
    | succ fuel inductionHypothesis =>
      intro tokens answers rest read
      rw [manyUntilGo] at read
      split at read
      · next ending left readLast =>
        cases read
        exact ⟨[], ending, _, rfl, .nil, last _ _ _ readLast⟩
      · split at read
        · next first left readFirst =>
          obtain ⟨⟨others, after⟩, readOthers, same⟩ := Option.map_eq_some_iff.1 read
          cases same
          obtain ⟨front, ending, middle, rfl, tiles, atEnd⟩ :=
            inductionHypothesis _ _ _ readOthers
          exact ⟨first :: front, ending, middle, rfl, .cons (each _ _ _ readFirst) tiles, atEnd⟩
        · cases read
  exact fun tokens answers rest read => goes _ tokens answers rest read

theorem Reads.manyUntil {finish : Parser α} (each : Reads covers parser)
    (last : Reads covers finish) : Reads (Tiles covers) (manyUntil parser finish) := by
  intro tokens answers rest read
  obtain ⟨front, ending, middle, rfl, tiles, atEnd⟩ :=
    each.manyUntil_concat last _ _ _ read
  exact tiles.append (.single atEnd)

end

/-! ## Shapes -/

section

variable {parser : Parser Shape} {parts : Parser (List Shape)}

/-- Every group but that of a union covers what its parts do. -/
theorem covers_group {kind : Kind} {shapes : List Shape} {tokens rest : List Token}
    (inside : Tiles Covers shapes tokens rest)
    (plain : kind.isPlain = true) :
    Covers (group kind shapes) tokens rest :=
  .group plain inside

theorem reads_takeIf (holds : Token → Bool) (kind : Kind) (role : Option Role)
    (ofToken : kind.isOfToken = true) : Reads Covers (takeIf holds kind role) := by
  intro tokens answer rest read
  cases tokens with
  | nil => cases read
  | cons token others =>
    rw [takeIf] at read
    split at read
    · cases read
      exact .leaf ofToken
    · cases read

/-- Whatever it puts in its place, a parser of one token takes one. -/
theorem reads_one (holds : Token → Bool) (kind : Kind) (role : Option Role) :
    Reads (fun _ tokens rest => ∃ token, tokens = token :: rest) (takeIf holds kind role) := by
  intro tokens answer rest read
  cases tokens with
  | nil => cases read
  | cons token others =>
    rw [takeIf] at read
    split at read
    · cases read
      exact ⟨token.bare, rfl⟩
    · cases read

theorem reads_mark (text : String) : Reads Covers (mark text) := reads_takeIf _ _ _ rfl

/-- The leaf of a mark, in front of which a mark of that text stands. -/
def IsMark (text : String) (shape : Shape) (tokens rest : List Token) : Prop :=
  shape = .leaf .token none ∧ ∃ token, token.isPunctuation text = true ∧ tokens = token :: rest

theorem reads_isMark (text : String) : Reads (IsMark text) (mark text) := by
  intro tokens answer rest read
  cases tokens with
  | nil => cases read
  | cons token others =>
    rw [mark, takeIf] at read
    split at read
    · next isMark =>
      cases read
      exact ⟨rfl, token.bare, isMark, rfl⟩
    · cases read

theorem reads_word (text : String) : Reads Covers (word text) := reads_takeIf _ _ _ rfl

theorem reads_oneOfWords (texts : List String) : Reads Covers (oneOfWords texts) :=
  reads_takeIf _ _ _ rfl

theorem reads_ofKind (kind : TokenKind) (result : Kind)
    (ofToken : result.isOfToken = true) : Reads Covers (ofKind kind result) :=
  reads_takeIf _ _ _ ofToken

theorem Reads.single (first : Reads Covers parser) : Reads (Tiles Covers) (single parser) :=
  first.bind fun _ => reads_pure fun _ _ covered => .single covered

/-- Two shapes that are read one behind the other. -/
theorem Reads.pair {other : Parser Shape} (first : Reads Covers parser)
    (second : Reads Covers other) :
    Reads (Tiles Covers) (do return [← parser, ← other]) :=
  first.bind fun _ => second.bind fun _ =>
    reads_pure fun _ _ behind _ inFront => .cons inFront (.single behind)

theorem Reads.groupOfTwo {kind : Kind} {other : Parser Shape} (first : Reads Covers parser)
    (second : Reads Covers other)
    (plain : kind.isPlain = true) :
    Reads Covers (do return group kind [← parser, ← other]) :=
  first.bind fun _ => second.bind fun _ => reads_pure fun _ _ behind _ inFront =>
    covers_group (.cons inFront (.single behind)) plain

theorem Reads.groupOfThree {kind : Kind} {other last : Parser Shape} (first : Reads Covers parser)
    (second : Reads Covers other) (third : Reads Covers last)
    (plain : kind.isPlain = true) :
    Reads Covers (do return group kind [← parser, ← other, ← last]) :=
  first.bind fun _ => second.bind fun _ => third.bind fun _ =>
    reads_pure fun _ _ behind _ between _ inFront =>
      covers_group (.cons inFront (.cons between (.single behind))) plain

theorem Reads.optionally (first : Reads (Tiles Covers) parts) :
    Reads (Tiles Covers) (optionally parts) :=
  first.orElse (reads_pure fun _ => .nil)

/-- An extension of a shape covers the tokens of the shape and those behind them. -/
theorem reads_extend {covers : Shape → List Token → List Token → Prop}
    {step : Shape → Parser (Option Shape)}
    (steps : ∀ target, Reads (Behind (covers target) fun larger? => covers (larger?.getD target))
      (step target)) (shape : Shape) : Reads (Behind (covers shape) covers) (extend step shape) := by
  have goes (fuel : Nat) (shape : Shape) :
      Reads (Behind (covers shape) covers) (extendWhile step fuel shape) := by
    induction fuel generalizing shape with
    | zero => exact reads_pure fun _ _ covered => covered
    | succ fuel inductionHypothesis =>
      refine (steps shape).bind fun larger? => ?_
      cases larger? with
      | none => exact reads_pure fun _ _ stays _ covered => stays _ covered
      | some larger =>
        intro tokens answer rest read middle grows start covered
        exact inductionHypothesis larger _ _ _ read _ (grows _ covered)
  exact fun tokens answer rest read => goes _ shape tokens answer rest read

theorem reads_commaList {item : Parser (List Shape)} (each : Reads (Tiles Covers) item)
    (close : String) : Reads (Tiles Covers) (commaList item close) := by
  have chunk : Reads (Tiles Covers) (do
      if ← atMark "," then Grammar.single (mark ",")
      else
        let parts ← item
        Grammar.guarded ((← atMark ",") || (← atMark close)) (pure parts)) := by
    refine (looks_check _ _).then fun _ => (reads_mark _).single.ite ?_
    refine each.bind fun _ => (looks_check _ _).then fun _ => (looks_check _ _).then fun _ => ?_
    exact (reads_pure fun _ _ covered => covered).guarded
  refine (chunk.manyUntil (reads_mark _).single).bind fun _ => ?_
  exact reads_pure fun _ _ covered => covered.flatten

theorem reads_bracketed {item : Parser (List Shape)} (each : Reads (Tiles Covers) item)
    (opening close : String) : Reads (Tiles Covers) (bracketed opening close item) := by
  refine (reads_mark opening).bind fun _ => (reads_commaList each close).bind fun _ => ?_
  exact reads_pure fun _ _ inside _ bracket => .cons bracket inside

theorem reads_commaSeparated (each : Reads Covers parser) :
    Reads (Tiles Covers) (commaSeparated parser) := by
  refine each.bind fun _ => ((reads_mark ",").pair each).many.bind fun _ => ?_
  exact reads_pure fun _ _ others _ first => .cons first others.flatten

/-- A semicolon that is not written is covered without a token. -/
theorem reads_semicolon : Reads (Tiles Covers) semicolon := by
  intro tokens parts rest read
  unfold semicolon at read
  split at read
  · split at read
    · cases read
      exact .single (.leaf rfl)
    · split at read
      · cases read
        exact .single .missingSemicolon
      · cases read
  · cases read

theorem reads_trailingSemicolon : Reads (Tiles Covers) trailingSemicolon := by
  intro tokens parts rest read
  unfold trailingSemicolon at read
  split at read
  · split at read
    · cases read
      exact .single .missingSemicolon
    · cases read
      exact .nil
  · cases read
    exact .nil

end

/-! ## Names -/

section

variable {parse : Parse}

/-- Whatever is nested is read in the same way. -/
def ReadsNested (parse : Parse) : Prop := ∀ goal, Reads Covers (parse goal)

theorem reads_identifier : Reads Covers identifier := reads_takeIf _ _ _ rfl

theorem reads_typeName : Reads Covers typeName := reads_takeIf _ _ _ rfl

theorem reads_anyWord (kind : Kind) (ofToken : kind.isOfToken = true) :
    Reads Covers (anyWord kind) := reads_takeIf _ _ _ ofToken

theorem reads_moduleName : Reads Covers moduleName :=
  (reads_anyWord _ rfl).orElse (reads_ofKind _ _ rfl)

theorem reads_propertyName : Reads Covers propertyName :=
  (reads_anyWord _ rfl).orElse (reads_ofKind _ _ rfl)

theorem reads_memberName (nested : ReadsNested parse) : Reads Covers (memberName parse) := by
  refine reads_propertyName.orElse <| (reads_ofKind _ _ rfl).orElse <|
    (reads_ofKind _ _ rfl).orElse ?_
  exact (reads_mark _).groupOfThree (nested _) (reads_mark _) rfl

theorem reads_modifierShape (words : List String) (token : Option Token) :
    Reads Covers (modifierOf.modifierShape words token) := by
  unfold modifierOf.modifierShape
  cases token with
  | none => exact reads_failure
  | some found =>
    refine Reads.ite ?_ (Reads.ite ?_ (reads_oneOfWords words)) <;>
      exact (reads_oneOfWords words).bind fun _ => reads_pure fun _ _ covered =>
        covers_group (.single covered) rfl

theorem reads_modifierOf (words : List String) : Reads Covers (modifierOf words) :=
  (looks_check _ _).then fun _ => Reads.guarded <|
    looks_peek.then fun token => reads_modifierShape words token

end

end Grammar

end CreatorMigration
