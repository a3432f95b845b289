import CreatorMigration.Proofs.Tree.Covering.Statements
import CreatorMigration.Proofs.Tree.Gaps
import CreatorMigration.Proofs.Tree.Leaves

/-! # Bars of unions

Shapes that cover their tokens are woven into nodes of which as much is known: `Tree.isFormed_parse`
says that identifiers are single tokens, and that behind the first members of a union come blanks
only, up to a bar or to a comment in front of one.
-/

namespace CreatorMigration

open Span (Adjoins OpensWith)

namespace Node

/-- Where a union is cut: it opens with a bar, or a bar or a comment follows what it opens with. -/
inductive HasBar (text : String) (union : Node) : Prop where
  | leading {bar : Node} {rest : List Node} (children : union.children = bar :: rest)
      (opens : bar.span.OpensWith text '|')
  | behind {members next : Node} {rest : List Node}
      (children : union.children = members :: next :: rest) (named : members.isNamed = true)
      (noComment : members.isComment = false) (adjoins : members.span.Adjoins text next.span)
      (opens : next.span.OpensWith text '|' ∨ next.span.OpensWith text '/')

/-- An identifier is a single token, a union has a bar, and a comment opens with a slash. -/
structure IsFormed (text : String) (node : Node) : Prop where
  plain : node.kind.isAnyIdentifier = true → node.children = []
  hasBar : node.kind = .unionType → node.HasBar text
  opens : node.kind = .comment → node.span.OpensWith text '/'

/-- All nodes of the tree are formed. -/
def AllFormed (text : String) (node : Node) : Prop :=
  ∀ inner ∈ node.descendants, inner.IsFormed text

theorem allFormed_of_children {text : String} {node : Node} (own : node.IsFormed text)
    (below : ∀ child ∈ node.children, child.AllFormed text) : node.AllFormed text := by
  intro inner member
  rw [descendants_eq, List.mem_cons, List.mem_flatMap] at member
  rcases member with rfl | ⟨child, childMember, inside⟩
  · exact own
  · exact below child childMember inner inside

end Node

namespace Shape

variable {text : String}

/-! ## Comments -/

/-- A comment that stands where a slash does. -/
structure IsCommentIn (text : String) (node : Node) : Prop where
  isComment : node.kind = .comment
  childless : node.children = []
  opens : node.span.OpensWith text '/'

theorem IsCommentIn.allFormed {node : Node} (comment : IsCommentIn text node) :
    node.AllFormed text := by
  obtain ⟨kind, childless, opens⟩ := comment
  refine Node.allFormed_of_children ⟨fun _ => childless, fun union => ?_, fun _ => opens⟩
    (by simp [childless])
  rw [kind] at union
  cases union

theorem isCommentIn_commentNodes {comments : List Comment}
    (opens : ∀ comment ∈ comments, comment.span.OpensWith text '/') :
    ∀ node ∈ commentNodes comments, IsCommentIn text node := by
  intro node member
  obtain ⟨comment, commentMember, rfl⟩ := List.mem_map.1 member
  exact ⟨rfl, rfl, opens comment commentMember⟩

theorem map_span_commentNodes (comments : List Comment) :
    (commentNodes comments).map Node.span = comments.map Comment.span := by
  rw [commentNodes, List.map_map]
  rfl

/-! ## Tokens that are left -/

/-- The tokens behind those that a shape covers are left, without some of their comments. -/
structure Woven.StopsAt (text : String) (rest : List Token) (woven : Woven) : Prop where
  bare : woven.rest.map Token.bare = rest
  cut : ∀ token ∈ woven.rest, token.IsCut text

theorem cut_missingSemicolon {token : Token} (cut : token.IsCut text) :
    (∀ comment ∈ (token.comments.span fun comment => !comment.lineBreak).1,
      comment.span.OpensWith text '/') ∧
    ({ token with comments := (token.comments.span fun comment => !comment.lineBreak).2 } :
      Token).IsCut text := by
  have comments := cut.comments
  rw [← Token.span_append (fun comment : Comment => !comment.lineBreak) token.comments,
    List.forall_mem_append] at comments
  exact ⟨comments.1, cut.own, comments.2⟩

mutual

theorem stopsAt_weave {tokens : List Token} {woven : Woven} :
    ∀ shape : Shape, weave shape tokens = some woven → (∀ token ∈ tokens, token.IsCut text) →
      ∀ {rest}, shape.Covers (tokens.map Token.bare) rest → woven.StopsAt text rest
  | leaf kind role, wove, cut, _, covers => by
    cases tokens with
    | nil => cases wove
    | cons token others =>
      cases wove
      cases covers
      exact ⟨rfl, (List.forall_mem_cons.1 cut).2⟩
  | missingSemicolon, wove, cut, _, covers => by
    cases tokens with
    | nil => cases wove
    | cons token others =>
      cases wove
      cases covers
      obtain ⟨own, others⟩ := List.forall_mem_cons.1 cut
      exact ⟨rfl, List.forall_mem_cons.2 ⟨(cut_missingSemicolon own).2, others⟩⟩
  | finish, _, _, _, covers => by cases covers
  | group kind role parts, wove, cut, _, covers => by
    obtain ⟨inner, woveParts, rfl⟩ := Option.map_eq_some_iff.1 wove
    obtain ⟨bare, others⟩ := stopsAt_weaveAll parts woveParts cut covers.tiles
    exact ⟨bare, others⟩

theorem stopsAt_weaveAll {tokens : List Token} {woven : Woven} :
    ∀ shapes : List Shape, weaveAll shapes tokens = some woven →
      (∀ token ∈ tokens, token.IsCut text) →
        ∀ {rest}, Tiles Covers shapes (tokens.map Token.bare) rest → woven.StopsAt text rest
  | [], wove, cut, _, covers => by
    cases wove
    cases covers
    exact ⟨rfl, cut⟩
  | shape :: shapes, wove, cut, _, .cons inFront behind => by
    obtain ⟨first, woveFirst, others⟩ := Option.bind_eq_some_iff.1 wove
    obtain ⟨second, woveSecond, same⟩ := Option.bind_eq_some_iff.1 others
    cases same
    obtain ⟨rfl, cutFirst⟩ := stopsAt_weave shape woveFirst cut inFront
    obtain ⟨bare, others⟩ := stopsAt_weaveAll shapes woveSecond cutFirst behind
    exact ⟨by rw [Woven.rest_followedBy, bare], by rw [Woven.rest_followedBy]; exact others⟩

end

/-! ## Nodes with bars -/

/-- A named shape is woven into a named node, or into none if it has no tokens. -/
theorem nodes_of_isNamed {shape : Shape} {tokens : List Token} {woven : Woven}
    (named : shape.IsNamed) (wove : weave shape tokens = some woven) :
    woven.nodes = [] ∨
      ∃ node, woven.nodes = [node] ∧ node.isNamed = true ∧ node.isComment = false := by
  obtain ⟨kind, hasKind, named⟩ := named
  obtain ⟨noToken, noComment⟩ := Kind.isNamed_iff.1 named
  cases shape with
  | missingSemicolon => cases hasKind
  | finish => cases hasKind
  | leaf other role =>
    obtain rfl : other = kind := eq_of_beq hasKind
    cases tokens with
    | nil => cases wove
    | cons token rest =>
      cases wove
      exact .inr ⟨_, rfl, bne_iff_ne.2 noToken, beq_eq_false_iff_ne.2 noComment⟩
  | group other role parts =>
    obtain rfl : other = kind := eq_of_beq hasKind
    obtain ⟨inner, _, rfl⟩ := Option.map_eq_some_iff.1 wove
    cases nodes : inner.nodes with
    | nil => exact .inl rfl
    | cons first others =>
      exact .inr ⟨_, rfl, bne_iff_ne.2 noToken, beq_eq_false_iff_ne.2 noComment⟩

theorem opensWith_bar {token : Token} (cut : token.IsCut text)
    (isBar : token.isPunctuation "|" = true) : token.span.OpensWith text '|' := by
  have bar : token.text = "|" := eq_of_beq (Bool.and_eq_true_iff.1 isBar).2
  rw [OpensWith, cut.own, bar]
  rfl

/-- What is woven from the bar of a union and from what stands behind it. -/
theorem exists_nodes_of_bar {member : Shape} {tokens rest : List Token} {bar : Token}
    {woven : Woven} (wove : weaveAll [.leaf .token none, member] tokens = some woven)
    (cut : ∀ token ∈ tokens, token.IsCut text) (isBar : bar.isPunctuation "|" = true)
    (starts : tokens.map Token.bare = bar :: rest) :
    ∃ comments node others, woven.lead = comments ∧ woven.nodes = node :: others ∧
      (∀ comment ∈ comments, IsCommentIn text comment) ∧ node.span.OpensWith text '|' := by
  obtain ⟨token, tokens, rfl, rfl, -⟩ := List.map_eq_cons_iff.1 starts
  obtain ⟨own, _⟩ := List.forall_mem_cons.1 cut
  rw [weaveAll, weave, Option.bind_eq_bind, Option.bind_some] at wove
  obtain ⟨behind, _, same⟩ := Option.bind_eq_some_iff.1 wove
  cases same
  exact ⟨_, _, _, rfl, rfl, isCommentIn_commentNodes own.comments, opensWith_bar own isBar⟩

theorem hasBar_of_covers {role : Option Role} {parts : List Shape} {tokens bare rest : List Token}
    {woven : Woven} (wove : weaveAll parts tokens = some woven)
    (cut : ∀ token ∈ tokens, token.IsCut text) (isBare : tokens.map Token.bare = bare)
    (covers : (Shape.group .unionType role parts).Covers bare rest)
    (chain : (woven.nodes.map Node.span).IsChain (Adjoins text)) {union : Node}
    (children : union.children = woven.nodes) : union.HasBar text := by
  cases covers with
  | group plain => cases plain
  | leadingBar isBar behind =>
    obtain ⟨comments, bar, others, -, nodes, -, opens⟩ := exists_nodes_of_bar wove cut isBar isBare
    exact .leading (children.trans nodes) opens
  | union named inFront isBar behind =>
    obtain ⟨first, woveFirst, others⟩ := Option.bind_eq_some_iff.1 wove
    obtain ⟨second, woveSecond, same⟩ := Option.bind_eq_some_iff.1 others
    cases same
    obtain ⟨bareFirst, cutFirst⟩ := stopsAt_weave _ woveFirst cut (isBare ▸ inFront)
    obtain ⟨comments, bar, others, rfl, nodes, areComments, opens⟩ :=
      exists_nodes_of_bar woveSecond cutFirst isBar bareFirst
    rcases nodes_of_isNamed named woveFirst with none | ⟨members, only, isNamed, noComment⟩
    -- nothing stands in front of the bar
    · rw [Woven.followedBy, if_pos (by simp [none]), nodes] at children
      exact .leading children opens
    · have parts : (first.followedBy second).nodes = members :: (second.lead ++ bar :: others) := by
        rw [Woven.followedBy, if_neg (by simp [only]), only, nodes]
        rfl
      rw [parts] at children chain
      cases lead : second.lead with
      | nil =>
        rw [lead] at children chain
        exact .behind children isNamed noComment (List.isChain_cons_cons.1 chain).1 (.inl opens)
      | cons comment comments =>
        rw [lead] at children chain
        have slash := (areComments comment (lead ▸ List.mem_cons_self)).opens
        exact .behind children isNamed noComment (List.isChain_cons_cons.1 chain).1 (.inr slash)

/-! ## All nodes -/

theorem isChain_through {front middle back : List Span} {first last : Span}
    (isFirst : middle.head? = some first) (isLast : middle.getLast? = some last)
    (chain : (front ++ middle ++ back).IsChain (Adjoins text)) :
    (front ++ [first.through last] ++ back).IsChain (Adjoins text) := by
  have nonempty : middle ≠ [] := by
    rintro rfl
    cases isFirst
  rw [List.isChain_append, List.isChain_append] at chain ⊢
  obtain ⟨⟨inFront, _, starts⟩, behind, stops⟩ := chain
  refine ⟨⟨inFront, .singleton _, fun left isLeft right isRight => ?_⟩, behind,
    fun left isLeft right isRight => ?_⟩
  · obtain rfl : first.through last = right := by simpa using isRight
    exact starts left isLeft first isFirst
  · obtain rfl : first.through last = left := by simpa using isLeft
    refine stops last ?_ right isRight
    rw [List.getLast?_append_of_ne_nil _ nonempty]
    exact isLast

/-- What is woven behind some spans is formed, with nothing but blanks between all of them. -/
structure Woven.Formed (text : String) (before : List Span) (woven : Woven) : Prop where
  lead : ∀ node ∈ woven.lead, IsCommentIn text node
  nodes : ∀ node ∈ woven.nodes, node.AllFormed text
  adjoins : (before ++ (woven.lead ++ woven.nodes).map Node.span ++
    woven.rest.flatMap Token.spans).IsChain (Adjoins text)

theorem Woven.Formed.followedBy {before : List Span} {first second : Woven}
    (front : ∀ node ∈ first.lead, IsCommentIn text node)
    (frontNodes : ∀ node ∈ first.nodes, node.AllFormed text)
    (back : second.Formed text (before ++ (first.lead ++ first.nodes).map Node.span)) :
    (first.followedBy second).Formed text before := by
  obtain ⟨lead, nodes, adjoins⟩ := back
  unfold Woven.followedBy
  split
  · next none =>
    refine ⟨List.forall_mem_append.2 ⟨front, lead⟩, nodes, ?_⟩
    simpa [List.isEmpty_iff.1 none] using adjoins
  · refine ⟨front, ?_, by simpa using adjoins⟩
    simp only [List.forall_mem_append]
    exact ⟨⟨frontNodes, fun node member => (lead node member).allFormed⟩, nodes⟩

theorem Woven.Formed.enclose {before : List Span} {kind : Kind} {role : Option Role}
    {inner : Woven} (formed : inner.Formed text before)
    (own : ∀ span, (⟨kind, role, span, inner.nodes⟩ : Node).IsFormed text) :
    Woven.Formed text before ⟨inner.lead, Shape.enclose kind role inner.nodes, inner.rest⟩ := by
  obtain ⟨lead, nodes, adjoins⟩ := formed
  refine ⟨lead, ?_, ?_⟩
  · cases parts : inner.nodes with
    | nil => simp [Shape.enclose]
    | cons first rest =>
      rw [parts] at own nodes
      exact List.forall_mem_singleton.2 (Node.allFormed_of_children (own _) nodes)
  · cases parts : inner.nodes with
    | nil => simpa [Shape.enclose, parts] using adjoins
    | cons first rest =>
      rw [parts, List.map_append, ← List.append_assoc] at adjoins
      rw [Shape.enclose, List.map_append, ← List.append_assoc]
      refine isChain_through rfl ?_ adjoins
      rw [List.getLast?_map, List.getLast?_eq_some_getLast (List.cons_ne_nil _ _)]
      rfl

mutual

theorem formed_weave {tokens : List Token} {woven : Woven} {before : List Span} :
    ∀ shape : Shape, weave shape tokens = some woven → (∀ token ∈ tokens, token.IsCut text) →
      ∀ {rest}, shape.Covers (tokens.map Token.bare) rest →
        (before ++ tokens.flatMap Token.spans).IsChain (Adjoins text) → woven.Formed text before
  | leaf kind role, wove, cut, _, covers, chain => by
    cases tokens with
    | nil => cases wove
    | cons token others =>
      cases wove
      refine ⟨isCommentIn_commentNodes (cut token List.mem_cons_self).comments, ?_, ?_⟩
      · obtain ⟨noUnion, noComment⟩ := covers.kind_of_leaf
        refine List.forall_mem_singleton.2 (Node.allFormed_of_children ⟨fun _ => rfl, ?_, ?_⟩
          (by simp))
        · exact fun union => absurd union noUnion
        · exact fun comment => absurd comment noComment
      · simpa [map_span_commentNodes, Token.spans] using chain
  | missingSemicolon, wove, cut, _, covers, chain => by
    cases tokens with
    | nil => cases wove
    | cons token others =>
      cases wove
      -- only the comments up to the line break are taken, and the others wait with the token
      obtain ⟨sameLine, _⟩ := cut_missingSemicolon (cut token List.mem_cons_self)
      refine ⟨isCommentIn_commentNodes sameLine, by simp, ?_⟩
      rw [List.flatMap_cons, Token.spans,
        ← Token.span_append (fun comment => !comment.lineBreak) token.comments] at chain
      rw [List.append_nil, map_span_commentNodes, List.flatMap_cons, Token.spans]
      simp only [List.map_append, List.append_assoc] at chain ⊢
      exact chain
  | finish, _, _, _, covers, _ => by cases covers
  | group kind role parts, wove, cut, _, covers, chain => by
    obtain ⟨inner, woveParts, rfl⟩ := Option.map_eq_some_iff.1 wove
    have formed := formed_weaveAll parts woveParts cut covers.tiles chain
    obtain ⟨noIdentifier, noComment⟩ := covers.kind_of_group
    refine formed.enclose fun span => ⟨fun identifier => ?_, fun union => ?_, fun comment => ?_⟩
    · exact absurd identifier (Bool.eq_false_iff.1 noIdentifier)
    · subst union
      -- the bar of a union is found by the tokens that its shape covers
      refine hasBar_of_covers woveParts cut rfl covers ?_ rfl
      have nodes := formed.adjoins
      rw [List.map_append, ← List.append_assoc] at nodes
      exact nodes.left_of_append.right_of_append
    · exact absurd comment noComment

theorem formed_weaveAll {tokens : List Token} {woven : Woven} {before : List Span} :
    ∀ shapes : List Shape, weaveAll shapes tokens = some woven →
      (∀ token ∈ tokens, token.IsCut text) →
        ∀ {rest}, Tiles Covers shapes (tokens.map Token.bare) rest →
          (before ++ tokens.flatMap Token.spans).IsChain (Adjoins text) → woven.Formed text before
  | [], wove, _, _, _, chain => by
    cases wove
    exact ⟨by simp, by simp, by simpa using chain⟩
  | shape :: shapes, wove, cut, _, .cons inFront behind, chain => by
    obtain ⟨first, woveFirst, others⟩ := Option.bind_eq_some_iff.1 wove
    obtain ⟨second, woveSecond, same⟩ := Option.bind_eq_some_iff.1 others
    cases same
    obtain ⟨rfl, cutFirst⟩ := stopsAt_weave shape woveFirst cut inFront
    obtain ⟨lead, nodes, adjoins⟩ := formed_weave shape woveFirst cut inFront chain
    exact .followedBy lead nodes (formed_weaveAll shapes woveSecond cutFirst behind adjoins)

end

/-- The end of a unit has comments only. -/
theorem allFormed_of_finish {shapes : List Shape} {tokens rest : List Token} {last : Token}
    {woven : Woven} (before : List Span)
    (wove : weaveAll (shapes ++ [.finish]) tokens = some woven) (cut : ∀ token ∈ tokens, token.IsCut text)
    (covers : Tiles Covers shapes (tokens.map Token.bare) (last :: rest))
    (chain : (before ++ tokens.flatMap Token.spans).IsChain (Adjoins text)) :
    ∀ node ∈ woven.lead ++ woven.nodes, node.AllFormed text := by
  induction shapes generalizing tokens woven before with
  | nil =>
    cases tokens with
    | nil => cases wove
    | cons token others =>
      cases wove
      have comments := isCommentIn_commentNodes (cut token List.mem_cons_self).comments
      intro node member
      exact (comments node (by simpa [Woven.followedBy] using member)).allFormed
  | cons shape shapes inductionHypothesis =>
    obtain ⟨first, woveFirst, others⟩ := Option.bind_eq_some_iff.1 wove
    obtain ⟨second, woveSecond, same⟩ := Option.bind_eq_some_iff.1 others
    cases same
    cases covers with
    | cons inFront behind =>
      obtain ⟨rfl, cutFirst⟩ := stopsAt_weave shape woveFirst cut inFront
      obtain ⟨lead, nodes, adjoins⟩ := formed_weave shape woveFirst cut inFront chain
      have later := inductionHypothesis _ woveSecond cutFirst behind adjoins
      intro node member
      have parts : node ∈ first.lead ∨ node ∈ first.nodes ∨ node ∈ second.lead ++ second.nodes := by
        unfold Woven.followedBy at member
        split at member <;> simp only [List.mem_append] at member ⊢ <;> tauto
      rcases parts with inLead | inNodes | inSecond
      · exact (lead node inLead).allFormed
      · exact nodes node inNodes
      · exact later node inSecond

end Shape

/-- All nodes of the tree of a text are formed. -/
theorem Tree.allFormed_parse (text : String) : (parse text).AllFormed text := by
  have program : (parse text).kind = .program := SourceUnit.kind_tree (.ofText ⟨""⟩ text)
  refine Node.allFormed_of_children ⟨fun identifier => ?_, fun union => ?_, fun comment => ?_⟩
    fun child member => ?_
  · rw [program] at identifier
    cases identifier
  · rw [program] at union
    cases union
  · rw [program] at comment
    cases comment
  · obtain ⟨tokens, parts, rest, woven, scanned, read, wove, within⟩ :=
      exists_woven_of_mem_children member
    obtain ⟨shapes, last, rfl, covers⟩ := Grammar.reads_unitParts _ _ _ _ read
    obtain ⟨cut, adjoins⟩ := Token.scanned_of_scan? scanned
    exact Shape.allFormed_of_finish [_] wove cut covers adjoins child within

end CreatorMigration
