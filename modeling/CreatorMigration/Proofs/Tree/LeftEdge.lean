import CreatorMigration.Proofs.Tree.Places
import CreatorMigration.Proofs.Unit.Spans

/-! # What a node starts with

The first token of a node opens it: whatever is nested inside of the node, its text starts with the
text of its leftmost leaf. `SourceUnit.hasStart_leftmost_iff` says so for single characters, which
is all that is needed to see how a text goes on behind another one.
-/

namespace CreatorMigration

open String (utf8Len)

/-! ## Tokens with bytes -/

/-- The span has bytes, or there are none left where it stands. -/
def Span.IsWide (text : String) (span : Span) : Prop :=
  span.start < span.stop ∨ Text.size text ≤ span.start

namespace Token

variable {text : String} {position : Position}

theorem Position.lt_skip {taken : List Char} (left : List Char) (nonempty : taken ≠ []) :
    position.offset < (position.skip taken left).offset := by
  obtain ⟨first, rest, rfl⟩ := List.exists_cons_of_ne_nil nonempty
  have wide : 0 < utf8Len (first :: rest) := by
    rw [String.utf8Len_cons]
    exact Nat.add_pos_right _ first.utf8Size_pos
  rw [skip, width_eq]
  exact Nat.lt_add_of_pos_right wide

theorem isWide_of_skipGap {fuel : Nat} {comments : List Comment} {lineBreak : Bool} {gap : Gap}
    {start : Position} (skipped : skipGap fuel comments lineBreak position = some (gap, start))
    (wide : ∀ comment ∈ comments, comment.span.IsWide text) :
    ∀ comment ∈ gap.comments, comment.span.IsWide text := by
  fun_induction skipGap fuel comments lineBreak position with
  | case1 => cases skipped
  | case2 fuel comments lineBreak position rest opened taken left cut after inductionHypothesis =>
    rw [opened] at cut
    have nonempty : taken ≠ [] := ne_nil_of_span (by decide) cut
    refine inductionHypothesis skipped (List.forall_mem_append.2 ⟨wide, ?_⟩)
    exact List.forall_mem_singleton.2 (.inl (Position.lt_skip left nonempty))
  | case3 fuel comments lineBreak position rest opened inductionHypothesis =>
    obtain ⟨⟨taken, left⟩, tookBody, continued⟩ := Option.bind_eq_some_iff.1 skipped
    refine inductionHypothesis taken left continued (List.forall_mem_append.2 ⟨wide, ?_⟩)
    exact List.forall_mem_singleton.2 (.inl (Position.lt_skip left (List.cons_ne_nil _ _)))
  | case4 fuel comments lineBreak position c _ _ _ _ space taken left cut inductionHypothesis =>
    exact inductionHypothesis skipped wide
  | case5 =>
    cases skipped
    exact wide
  | case6 =>
    cases skipped
    exact wide

theorem Position.IsAt.offset_of_nil (placed : position.IsAt text) (ended : position.chars = []) :
    position.offset = Text.size text := by
  obtain ⟨front, chars, offset⟩ := placed
  rw [← offset, Text.size_eq, chars, ended, List.append_nil]

theorem isWide_cons {token : Token} {rest : List Token}
    (comments : ∀ comment ∈ token.comments, comment.span.IsWide text)
    (own : token.span.IsWide text) (others : ∀ span ∈ rest.flatMap spans, span.IsWide text) :
    ∀ span ∈ (token :: rest).flatMap spans, span.IsWide text := by
  rw [List.flatMap_cons, spans]
  simp only [List.forall_mem_append, List.forall_mem_map, List.forall_mem_singleton]
  exact ⟨⟨comments, own⟩, others⟩

theorem isWide_of_scanFrom {fuel : Nat} {memory : Memory} {inTemplate : Bool}
    {tokens : List Token} (scanned : scanFrom fuel memory inTemplate position = some tokens)
    (placed : position.IsAt text) : ∀ span ∈ tokens.flatMap spans, span.IsWide text := by
  induction fuel generalizing memory inTemplate position tokens with
  | zero => cases scanned
  | succ fuel inductionHypothesis =>
    obtain ⟨gap, start, skipped, read⟩ := scanFrom_succ_cases scanned
    have inFront : start.IsAt text ∧ ∀ comment ∈ gap.comments, comment.span.IsWide text := by
      rcases skipped with ⟨_, rfl, rfl⟩ | ⟨_, skipped⟩
      · exact ⟨placed, by simp⟩
      · exact ⟨(inOrder_of_skipGap skipped placed (Nat.le_refl _)).1,
          isWide_of_skipGap skipped (by simp)⟩
    rcases read with ⟨_, _, ended, rfl⟩ |
      ⟨kind, taken, left, next, rest, _, nonempty, split, scannedRest, rfl⟩
    · -- the token that ends the text is the only one without bytes
      exact isWide_cons inFront.2 (.inr (inFront.1.offset_of_nil ended).ge) (by simp)
    · exact isWide_cons inFront.2 (.inl (Position.lt_skip left nonempty))
        (inductionHypothesis scannedRest (inFront.1.skip split).1)

theorem isWide_of_scan? {tokens : List Token} (scanned : scan? text = some tokens) :
    ∀ span ∈ tokens.flatMap spans, span.IsWide text := by
  have atStart : (⟨0, text.toList⟩ : Position).IsAt text := ⟨[], rfl, rfl⟩
  simp only [scan?] at scanned
  split at scanned
  · next token position opened =>
    obtain ⟨rest, scannedRest, rfl⟩ := Option.map_eq_some_iff.1 scanned
    obtain ⟨taken, left, nonempty, split, comments, span, rfl⟩ := exists_of_hashBang? opened
    have behind := atStart.skip split
    simp only [Position.skip, Nat.zero_add] at behind
    refine isWide_cons (by simp [comments]) (.inl ?_) (isWide_of_scanFrom scannedRest behind.1)
    have wide : (0 : Nat) < 0 + width taken :=
      @Position.lt_skip ⟨0, text.toList⟩ taken left nonempty
    rwa [span, ← Nat.zero_add (width taken)]
  · exact isWide_of_scanFrom scanned atStart

end Token

/-! ## Nodes that start with their first child -/

namespace Node

/-- The leaf that a node starts with. -/
def leftmost : Node → Node
  | ⟨kind, role, span, []⟩ => ⟨kind, role, span, []⟩
  | ⟨_, _, _, first :: _⟩ => leftmost first

/-- Every node of the tree starts where its first child does, and every leaf has bytes. -/
inductive IsTight (text : String) : Node → Prop
  | leaf {kind : Kind} {role : Option Role} {span : Span} (wide : span.IsWide text) :
      IsTight text ⟨kind, role, span, []⟩
  | inner {kind : Kind} {role : Option Role} {span : Span} {first : Node} {rest : List Node}
      (start : span.start = first.span.start)
      (below : ∀ child ∈ first :: rest, IsTight text child) :
      IsTight text ⟨kind, role, span, first :: rest⟩

variable {text : String} {node : Node}

theorem IsTight.child (tight : node.IsTight text) {child : Node} (member : child ∈ node.children) :
    child.IsTight text := by
  cases tight with
  | leaf => simp at member
  | inner start below => exact below child member

theorem IsTight.leftmost (tight : node.IsTight text) :
    node.leftmost.span.start = node.span.start ∧ node.leftmost.span.IsWide text := by
  induction tight with
  | leaf wide => exact ⟨rfl, wide⟩
  | @inner kind role span first rest start below inductionHypothesis =>
    obtain ⟨same, wide⟩ := inductionHypothesis first List.mem_cons_self
    exact ⟨same.trans start.symm, wide⟩

theorem IsPlaced.leftmost (placed : node.IsPlaced text) :
    node.leftmost.IsPlaced text ∧ node.leftmost.span.stop ≤ node.span.stop := by
  induction placed with
  | @mk kind role span children isIn inOrder below inductionHypothesis =>
    cases children with
    | nil => exact ⟨.mk isIn inOrder below, Nat.le_refl _⟩
    | cons first rest =>
      obtain ⟨firstPlaced, inFirst⟩ := inductionHypothesis first List.mem_cons_self
      exact ⟨firstPlaced, inFirst.trans (inOrder.isIn (by simp)).2.2⟩

end Node

/-! ## Weaving -/

namespace Shape

variable {text : String}

theorem isTight_commentNodes {comments : List Comment}
    (wide : ∀ comment ∈ comments, comment.span.IsWide text) :
    ∀ node ∈ commentNodes comments, node.IsTight text := by
  intro node member
  obtain ⟨comment, commentMember, rfl⟩ := List.mem_map.1 member
  exact .leaf (wide comment commentMember)

theorem isTight_enclose {kind : Kind} {role : Option Role} {nodes : List Node}
    (tight : ∀ node ∈ nodes, node.IsTight text) :
    ∀ node ∈ enclose kind role nodes, node.IsTight text := by
  cases nodes with
  | nil => exact tight
  | cons first rest => exact List.forall_mem_singleton.2 (.inner rfl tight)

/-- What is woven is tight, and what is left of the tokens still has bytes. -/
structure Woven.Tight (text : String) (woven : Woven) : Prop where
  lead : ∀ node ∈ woven.lead, node.IsTight text
  nodes : ∀ node ∈ woven.nodes, node.IsTight text
  rest : ∀ span ∈ woven.rest.flatMap Token.spans, span.IsWide text

theorem Woven.Tight.followedBy {first second : Woven} (front : first.Tight text)
    (back : second.Tight text) : (first.followedBy second).Tight text := by
  unfold Woven.followedBy
  split
  · exact ⟨List.forall_mem_append.2 ⟨front.lead, back.lead⟩, back.nodes, back.rest⟩
  · refine ⟨front.lead, ?_, back.rest⟩
    simp only [List.forall_mem_append]
    exact ⟨⟨front.nodes, back.lead⟩, back.nodes⟩

/-- The comments of the first token and its own bytes have bytes, and so have the other tokens. -/
theorem isWide_first {token : Token} {rest : List Token}
    (wide : ∀ span ∈ (token :: rest).flatMap Token.spans, span.IsWide text) :
    (∀ comment ∈ token.comments, comment.span.IsWide text) ∧ token.span.IsWide text ∧
      ∀ span ∈ rest.flatMap Token.spans, span.IsWide text := by
  rw [List.flatMap_cons, Token.spans] at wide
  simp only [List.forall_mem_append, List.forall_mem_map, List.forall_mem_singleton] at wide
  exact ⟨wide.1.1, wide.1.2, wide.2⟩

mutual

theorem tight_weave {tokens : List Token} {woven : Woven} :
    ∀ shape : Shape, weave shape tokens = some woven →
      (∀ span ∈ tokens.flatMap Token.spans, span.IsWide text) → woven.Tight text
  | leaf kind role, wove, wide => by
    cases tokens with
    | nil => cases wove
    | cons token rest =>
      cases wove
      obtain ⟨comments, own, others⟩ := isWide_first wide
      exact ⟨isTight_commentNodes comments, List.forall_mem_singleton.2 (.leaf own), others⟩
  | missingSemicolon, wove, wide => by
    cases tokens with
    | nil => cases wove
    | cons token rest =>
      cases wove
      obtain ⟨comments, own, others⟩ := isWide_first wide
      have split := Token.span_append (fun comment : Comment => !comment.lineBreak) token.comments
      rw [← split, List.forall_mem_append] at comments
      exact ⟨isTight_commentNodes comments.1, by simp, Token.isWide_cons comments.2 own others⟩
  | finish, wove, wide => by
    cases tokens with
    | nil => cases wove
    | cons token rest =>
      cases wove
      obtain ⟨comments, _, others⟩ := isWide_first wide
      exact ⟨isTight_commentNodes comments, by simp, others⟩
  | group kind role parts, wove, wide => by
    obtain ⟨inner, woveParts, rfl⟩ := Option.map_eq_some_iff.1 wove
    obtain ⟨lead, nodes, others⟩ := tight_weaveAll parts woveParts wide
    exact ⟨lead, isTight_enclose nodes, others⟩

theorem tight_weaveAll {tokens : List Token} {woven : Woven} :
    ∀ shapes : List Shape, weaveAll shapes tokens = some woven →
      (∀ span ∈ tokens.flatMap Token.spans, span.IsWide text) → woven.Tight text
  | [], wove, wide => by
    cases wove
    exact ⟨by simp, by simp, wide⟩
  | shape :: shapes, wove, wide => by
    obtain ⟨first, woveFirst, others⟩ := Option.bind_eq_some_iff.1 wove
    obtain ⟨second, woveSecond, same⟩ := Option.bind_eq_some_iff.1 others
    cases same
    have front := tight_weave shape woveFirst wide
    exact front.followedBy (tight_weaveAll shapes woveSecond front.rest)

end

end Shape

/-- All statements of a tree are tight. Only the root starts in front of its first child, where a
unit starts with blanks. -/
theorem Tree.isTight_of_mem_children {text : String} {node : Node}
    (member : node ∈ (Tree.parse text).children) : node.IsTight text := by
  obtain ⟨tokens, parts, rest, woven, scanned, _, wove, within⟩ := exists_woven_of_mem_children member
  have tight := Shape.tight_weaveAll parts wove (Token.isWide_of_scan? scanned)
  exact (List.mem_append.1 within).elim (tight.lead node) (tight.nodes node)

/-! ## Texts -/

namespace Text

/-- A span with bytes has the first character of a longer one from the same offset on. -/
theorem head?_slice {text : String} {part whole : Span} (partIn : part.IsIn text)
    (wholeIn : whole.IsIn text) (start : part.start = whole.start) (stop : part.stop ≤ whole.stop)
    (wide : part.IsWide text) :
    (slice text part).toList.head? = (slice text whole).toList.head? := by
  have restIn : (Span.mk part.stop whole.stop).IsIn text :=
    ⟨stop, partIn.stop_isBoundary, wholeIn.stop_isBoundary⟩
  obtain ⟨front, inside, between, further, back, chars, partAt, restAt⟩ :=
    Span.exists_parts partIn restIn (Nat.le_refl _)
  obtain ⟨starts, stops⟩ := Span.mk.inj restAt
  obtain rfl : between = [] := by
    rw [partAt] at starts
    simp only [String.utf8Len_append] at starts
    exact String.utf8Len_eq_zero.1 (by omega)
  rw [List.append_nil] at chars stops
  have wholeAt : whole = ⟨utf8Len front, utf8Len front + utf8Len (inside ++ further)⟩ :=
    Span.eq_of_offsets (by rw [← start, partAt])
      (by rw [stops, String.utf8Len_append, String.utf8Len_append, Nat.add_assoc])
  have partChars : text.toList = front ++ inside ++ (further ++ back) := by
    rw [chars, List.append_assoc]
  have wholeChars : text.toList = front ++ (inside ++ further) ++ back := by
    rw [chars, List.append_assoc front]
  rw [partAt, wholeAt, slice_eq partChars, slice_eq wholeChars, String.toList_ofList,
    String.toList_ofList]
  cases inside with
  | cons first rest => rfl
  | nil =>
    -- without bytes the span is at the end, so the longer one has none either
    rw [partAt, Span.IsWide, size_eq, partChars, List.append_nil, String.utf8Len_append,
      String.utf8Len_append] at wide
    have none : utf8Len further = 0 := by
      simp only [String.utf8Len_nil] at wide
      omega
    rw [String.utf8Len_eq_zero.1 none]
    rfl

theorem hasStart_singleton_iff {c : Char} {text : String} :
    hasStart (String.singleton c) text = true ↔ text.toList.head? = some c := by
  rw [hasStart, String.toList_singleton]
  cases text.toList with
  | nil => simp [List.isPrefixOf]
  | cons first rest => simp [List.isPrefixOf, eq_comm (a := c)]

end Text

namespace SourceUnit

/-- A node and the leaf that it starts with start with the same character. -/
theorem hasStart_leftmost_iff (unit : SourceUnit) {statement node : Node} (c : Char)
    (member : statement ∈ unit.tree.children) (inside : node ∈ statement.descendants) :
    Text.hasStart (String.singleton c) (unit.textOf node) = true ↔
      Text.hasStart (String.singleton c) (unit.textOf node.leftmost) = true := by
  have tight : node.IsTight unit.text :=
    Node.forall_descendants (fun _ tight _ => tight.child)
      (Tree.isTight_of_mem_children (unit.tree_eq ▸ member)) node inside
  have placed : node.IsPlaced unit.text :=
    Node.forall_descendants (fun _ placed _ => placed.child)
      (unit.isPlaced_tree.child member) node inside
  obtain ⟨start, wide⟩ := tight.leftmost
  obtain ⟨leftmostPlaced, stop⟩ := placed.leftmost
  rw [Text.hasStart_singleton_iff, Text.hasStart_singleton_iff, textOf, textOf, Node.textIn,
    Node.textIn, Text.head?_slice leftmostPlaced.isIn placed.isIn start stop wide]

end SourceUnit

end CreatorMigration
