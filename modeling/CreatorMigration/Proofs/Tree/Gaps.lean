import CreatorMigration.Proofs.Tree.LeftEdge
import Mathlib.Data.List.Chain

/-! # Between tokens

Nothing but blanks stands between a token or a comment and the next one, since the scanner leaves
nothing else out: `Token.scanned_of_scan?`. So whatever stands behind a node opens with the first
character of a token or of a comment, once the blanks are skipped.
-/

namespace CreatorMigration

open String (utf8Len)

open Token (Position)

/-- Only blanks stand in the text from the one offset to the other. -/
def Text.OnlyBlanks (text : String) (lower upper : Nat) : Prop :=
  ∃ blanks left, (∀ c ∈ blanks, Token.isSpace c = true) ∧
    (⟨lower, blanks ++ left⟩ : Position).IsAt text ∧ upper = lower + utf8Len blanks

/-- A span is followed by another one with only blanks between them. -/
def Span.Adjoins (text : String) (left right : Span) : Prop :=
  Text.OnlyBlanks text left.stop right.start

/-- The bytes of a span open with the character. -/
def Span.OpensWith (text : String) (c : Char) (span : Span) : Prop :=
  (Text.slice text span).toList.head? = some c

namespace Text

variable {text : String} {lower upper : Nat}

theorem onlyBlanks_refl {position : Position} (placed : position.IsAt text) :
    OnlyBlanks text position.offset position.offset :=
  ⟨[], position.chars, by simp, placed, rfl⟩

theorem chars_eq_of_isAt {position other : Position} (placed : position.IsAt text)
    (placedOther : other.IsAt text) (same : position.offset = other.offset) :
    position.chars = other.chars := by
  obtain ⟨front, chars, offset⟩ := placed
  obtain ⟨frontOther, charsOther, offsetOther⟩ := placedOther
  have split := chars.symm.trans charsOther
  have isPrefix := prefix_of_utf8Len_le split (by omega)
  have isPrefixOther := prefix_of_utf8Len_le split.symm (by omega)
  obtain rfl := isPrefix.eq_of_length_le isPrefixOther.length_le
  exact List.append_cancel_left split

/-- Blanks that are skipped behind blanks. -/
theorem OnlyBlanks.skip {position : Position} {taken left : List Char}
    (before : OnlyBlanks text lower position.offset) (placed : position.IsAt text)
    (split : taken ++ left = position.chars) (spaces : ∀ c ∈ taken, Token.isSpace c = true) :
    OnlyBlanks text lower (position.skip taken left).offset := by
  obtain ⟨blanks, behind, blank, start, same⟩ := before
  have atStop : (⟨lower, blanks ++ behind⟩ : Position).skip blanks behind |>.IsAt text :=
    (start.skip rfl).1
  have rest : behind = taken ++ left := by
    rw [split]
    refine chars_eq_of_isAt atStop placed ?_
    rw [same, Position.skip, Token.width_eq]
  refine ⟨blanks ++ taken, left, List.forall_mem_append.2 ⟨blank, spaces⟩, ?_, ?_⟩
  · rwa [List.append_assoc, ← rest]
  · rw [Position.skip, Token.width_eq, same, String.utf8Len_append, Nat.add_assoc]

end Text

namespace Token

open Span (Adjoins OpensWith)

variable {text : String} {position : Position}

/-! ## Chains of spans -/

theorem isChain_of_start_eq {spans rest : List Span} {span other : Span}
    (inFront : (spans ++ [other]).IsChain (Adjoins text)) (same : other.start = span.start)
    (behind : (span :: rest).IsChain (Adjoins text)) :
    (spans ++ span :: rest).IsChain (Adjoins text) := by
  rw [List.isChain_append] at inFront ⊢
  refine ⟨inFront.1, behind, fun last isLast first isFirst => ?_⟩
  obtain rfl : span = first := by simpa using isFirst
  have adjoins := inFront.2.2 last isLast other (by simp)
  rwa [Adjoins, same] at adjoins

theorem isChain_of_stop_eq {rest : List Span} {span other : Span}
    (behind : (other :: rest).IsChain (Adjoins text)) (same : other.stop = span.stop) :
    (span :: rest).IsChain (Adjoins text) := by
  cases rest with
  | nil => exact .singleton _
  | cons next rest =>
    rw [List.isChain_cons_cons] at behind ⊢
    exact ⟨by rw [Adjoins, ← same]; exact behind.1, behind.2⟩

/-! ## Pieces of the text -/

theorem Position.IsAt.slice_skip {taken left : List Char} (placed : position.IsAt text)
    (split : taken ++ left = position.chars) :
    Text.slice text ⟨position.offset, (position.skip taken left).offset⟩ = String.ofList taken := by
  obtain ⟨front, chars, offset⟩ := placed
  rw [← split, ← List.append_assoc] at chars
  rw [Position.skip, width_eq, ← offset]
  exact Text.slice_eq chars

/-- A token has its text from where it stands, and its comments open with a slash. -/
structure IsCut (text : String) (token : Token) : Prop where
  own : Text.slice text token.span = token.text
  comments : ∀ comment ∈ token.comments, comment.span.OpensWith text '/'

/-! ## Gaps -/

/-- What is skipped in front of a position: comments that adjoin each other up to the position. -/
structure Skipped (text : String) (lower : Nat) (comments : List Comment) (position : Position) :
    Prop where
  placed : position.IsAt text
  opens : ∀ comment ∈ comments, comment.span.OpensWith text '/'
  adjoins : (Span.point lower :: comments.map Comment.span ++ [Span.point position.offset]).IsChain
    (Adjoins text)

theorem Skipped.start (placed : position.IsAt text) :
    Skipped text position.offset [] position :=
  ⟨placed, by simp, List.isChain_pair.2 (Text.onlyBlanks_refl placed)⟩

theorem Skipped.comment {lower : Nat} {comments : List Comment} {taken left : List Char}
    {lineBreak : Bool} (skipped : Skipped text lower comments position)
    (split : taken ++ left = position.chars) (slash : taken.head? = some '/') :
    Skipped text lower
      (comments ++ [⟨⟨position.offset, (position.skip taken left).offset⟩, lineBreak⟩])
      (position.skip taken left) := by
  obtain ⟨placed, opens, adjoins⟩ := skipped
  have behind := (placed.skip split).1
  refine ⟨behind, List.forall_mem_append.2 ⟨opens, ?_⟩, ?_⟩
  · refine List.forall_mem_singleton.2 ?_
    rw [OpensWith, placed.slice_skip split, String.toList_ofList, slash]
  · rw [List.map_append, ← List.cons_append, List.append_assoc]
    refine isChain_of_start_eq adjoins rfl ?_
    exact List.isChain_pair.2 (Text.onlyBlanks_refl behind)

theorem Skipped.blanks {lower : Nat} {comments : List Comment} {taken left : List Char}
    (skipped : Skipped text lower comments position) (split : taken ++ left = position.chars)
    (spaces : ∀ c ∈ taken, isSpace c = true) :
    Skipped text lower comments (position.skip taken left) := by
  obtain ⟨placed, opens, adjoins⟩ := skipped
  refine ⟨(placed.skip split).1, opens, ?_⟩
  rw [List.isChain_append] at adjoins ⊢
  refine ⟨adjoins.1, .singleton _, fun last isLast first isFirst => ?_⟩
  obtain rfl : Span.point (position.skip taken left).offset = first := by simpa using isFirst
  have adjoinsLast : Adjoins text last (Span.point position.offset) :=
    adjoins.2.2 last isLast _ (by simp)
  exact Text.OnlyBlanks.skip adjoinsLast placed split spaces

theorem skipped_of_skipGap {fuel lower : Nat} {comments : List Comment} {lineBreak : Bool}
    {gap : Gap} {start : Position}
    (read : skipGap fuel comments lineBreak position = some (gap, start))
    (skipped : Skipped text lower comments position) : Skipped text lower gap.comments start := by
  fun_induction skipGap fuel comments lineBreak position with
  | case1 => cases read
  | case2 fuel comments lineBreak position rest opened taken left cut after inductionHypothesis =>
    have slash : taken.head? = some '/' := by
      rw [opened, List.span_eq_takeWhile_dropWhile] at cut
      obtain ⟨rfl, _⟩ := Prod.mk.inj cut
      rfl
    exact inductionHypothesis read (skipped.comment (append_of_span cut) slash)
  | case3 fuel comments lineBreak position rest opened inductionHypothesis =>
    obtain ⟨⟨taken, left⟩, tookBody, continued⟩ := Option.bind_eq_some_iff.1 read
    have split : '/' :: '*' :: taken ++ left = position.chars := by
      rw [opened, List.cons_append, List.cons_append, append_of_takeBlockComment tookBody]
    exact inductionHypothesis taken left continued (skipped.comment split rfl)
  | case4 fuel comments lineBreak position c _ _ _ _ space taken left cut inductionHypothesis =>
    refine inductionHypothesis read (skipped.blanks (append_of_span cut) ?_)
    rw [List.span_eq_takeWhile_dropWhile] at cut
    obtain ⟨rfl, _⟩ := Prod.mk.inj cut
    exact fun c member => List.mem_takeWhile_imp member
  | case5 =>
    cases read
    exact skipped
  | case6 =>
    cases read
    exact skipped

/-! ## All tokens -/

/-- The tokens are pieces of the text with nothing but blanks between them from an offset on. -/
structure Scanned (text : String) (lower : Nat) (tokens : List Token) : Prop where
  cut : ∀ token ∈ tokens, token.IsCut text
  adjoins : (Span.point lower :: tokens.flatMap spans).IsChain (Adjoins text)

theorem Skipped.scanned {lower : Nat} (token : Token) {rest : List Token}
    (skipped : Skipped text lower token.comments position)
    (start : position.offset = token.span.start) (own : Text.slice text token.span = token.text)
    (others : Scanned text token.span.stop rest) : Scanned text lower (token :: rest) := by
  refine ⟨List.forall_mem_cons.2 ⟨⟨own, skipped.opens⟩, others.cut⟩, ?_⟩
  rw [List.flatMap_cons, spans, List.append_assoc, ← List.cons_append]
  exact isChain_of_start_eq skipped.adjoins start (isChain_of_stop_eq others.adjoins rfl)

theorem scanned_nil (lower : Nat) : Scanned text lower [] :=
  ⟨by simp, .singleton _⟩

theorem scanned_of_scanFrom {fuel : Nat} {memory : Memory} {inTemplate : Bool}
    {tokens : List Token} (read : scanFrom fuel memory inTemplate position = some tokens)
    (placed : position.IsAt text) : Scanned text position.offset tokens := by
  induction fuel generalizing memory inTemplate position tokens with
  | zero => cases read
  | succ fuel inductionHypothesis =>
    obtain ⟨gap, start, skips, others⟩ := scanFrom_succ_cases read
    have skipped : Skipped text position.offset gap.comments start := by
      rcases skips with ⟨_, rfl, rfl⟩ | ⟨_, skips⟩
      · exact .start placed
      · exact skipped_of_skipGap skips (.start placed)
    rcases others with ⟨_, _, _, rfl⟩ |
      ⟨kind, taken, left, next, rest, _, _, split, readRest, rfl⟩
    · refine Skipped.scanned ⟨_, _, _, _, _⟩ skipped rfl ?_ (scanned_nil _)
      exact Text.slice_point text start.offset
    · exact Skipped.scanned ⟨_, _, _, _, _⟩ skipped rfl
        (skipped.placed.slice_skip split)
        (inductionHypothesis readRest (skipped.placed.skip split).1)

/-- The line that names an interpreter is a piece of the text, too. -/
theorem exists_token_of_hashBang? {chars : List Char} {token : Token}
    (opened : hashBang? chars = some (token, position)) :
    ∃ taken left, taken ++ left = chars ∧
      token = ⟨.hashBang, String.ofList taken, ⟨0, width taken⟩, false, []⟩ ∧
      position = ⟨width taken, left⟩ := by
  unfold hashBang? at opened
  split at opened
  · cases opened
    exact ⟨_, _, span_append (fun c => !isLineEnd c) _, rfl, rfl⟩
  · cases opened

/-- The tokens of a text are pieces of it with nothing but blanks between them. -/
theorem scanned_of_scan? {tokens : List Token} (read : scan? text = some tokens) :
    Scanned text 0 tokens := by
  have atStart : (⟨0, text.toList⟩ : Position).IsAt text := ⟨[], rfl, rfl⟩
  simp only [scan?] at read
  split at read
  · next token position opened =>
    obtain ⟨rest, readRest, rfl⟩ := Option.map_eq_some_iff.1 read
    obtain ⟨taken, left, split, rfl, rfl⟩ := exists_token_of_hashBang? opened
    have piece := atStart.slice_skip split
    have behind := (atStart.skip split).1
    rw [Position.skip, Nat.zero_add] at piece behind
    exact Skipped.scanned ⟨_, _, _, _, _⟩ (.start atStart) rfl piece
      (scanned_of_scanFrom readRest behind)
  · exact scanned_of_scanFrom read atStart

end Token

end CreatorMigration
