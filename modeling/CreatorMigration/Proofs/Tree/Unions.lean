import CreatorMigration.Migration.Site
import CreatorMigration.Proofs.Tree.Bars
import Mathlib.Data.List.Rotate

/-! # Unions of a text

Behind the first member of a union stands a bar or a comment, with only blanks between them, unless
the union opens with a bar (`Node.opens_of_isUnion`). So the type that a union is replaced by never
is the union itself (`Tree.unionType_ne`): it would have to repeat its own beginning over and over,
and has no room for a bar.
-/

namespace CreatorMigration

open String (utf8Len)

/-! ## Nodes with bytes -/

theorem Span.OpensWith.wide {text : String} {c : Char} {span : Span}
    (opens : span.OpensWith text c) (isIn : span.IsIn text) : span.start < span.stop := by
  have size := isIn.size_slice
  by_contra short
  have none : Text.slice text span = "" := Text.eq_empty_of_size (by omega)
  rw [OpensWith, none] at opens
  cases opens

/-- Whatever stands in a statement has bytes. -/
theorem Tree.wide_of_mem_children {text : String} {statement node : Node}
    (member : statement ∈ (parse text).children) (inside : node ∈ statement.descendants) :
    node.span.start < node.span.stop := by
  have placed : node.IsPlaced text := Node.forall_descendants (fun _ placed _ => placed.child)
    ((isPlaced_parse text).child member) node inside
  induction node using Node.inductionOnChildren with
  | ofChildren node inductionHypothesis =>
    cases children : node.children with
    | nil =>
      cases comment : node.isComment with
      | false => exact wide_of_leaf_of_mem_children member inside children comment
      | true =>
        have formed := allFormed_parse text node (Node.mem_descendants_of_child member inside)
        exact (formed.opens (eq_of_beq comment)).wide placed.isIn
    | cons first rest =>
      have isFirst : first ∈ node.children := children ▸ List.mem_cons_self
      have below : first ∈ statement.descendants := Node.descendants_trans inside
        (Node.mem_descendants_of_child isFirst (Node.self_mem_descendants first))
      have wide := inductionHypothesis first isFirst below (placed.child isFirst)
      have within := placed.contains_of_mem_descendants
        (Node.mem_descendants_of_child isFirst (Node.self_mem_descendants first))
      omega

/-! ## Words that repeat themselves -/

/-- What stands behind a word that is also found behind a block is the block, turned around. -/
theorem isRotated_of_append_eq {α : Type} {block word behind : List α}
    (same : word ++ behind = block ++ word) : block ~r behind := by
  induction size : word.length using Nat.strong_induction_on generalizing word with
  | _ length inductionHypothesis =>
    rcases List.append_eq_append_iff.1 same with ⟨rest, rfl, rfl⟩ | ⟨rest, rfl, again⟩
    · exact List.isRotated_append
    · rcases block with _ | ⟨first, block⟩
      · obtain rfl : behind = [] := by simpa using same
        exact .refl _
      · refine inductionHypothesis rest.length ?_ again.symm rfl
        rw [← size, List.length_append, List.length_cons]
        omega

/-- Behind a word that is also found behind a block a turn of the block is found. -/
theorem exists_isRotated_of_append_eq {α : Type} {block word behind rest : List α}
    (same : word ++ behind = block ++ word ++ rest) : ∃ turn, block ~r turn ∧ turn <+: behind := by
  have lengths := congrArg List.length same
  simp only [List.length_append] at lengths
  rw [← List.take_append_drop block.length behind, ← List.append_assoc] at same
  have turn : word ++ behind.take block.length = block ++ word := by
    refine List.append_inj_left same ?_
    simp only [List.length_append, List.length_take]
    omega
  exact ⟨_, isRotated_of_append_eq turn, List.take_prefix _ _⟩

/-- What stands between the first members of the type of actions, whose first member starts like
that type itself. -/
def repeatedBlock : List Char := "eturnType<typeof r".toList

/-- Neither a bar nor a comment starts the text, nor does one follow a blank that starts it. -/
def opensWithoutMark : List Char → Bool
  | first :: second :: _ =>
    first != '|' && first != '/' &&
      (!Token.isSpace first || (!Token.isSpace second && second != '|' && second != '/'))
  | _ => false

theorem exists_of_opensWithoutMark {chars : List Char} (opens : opensWithoutMark chars = true) :
    ∃ first second more, chars = first :: second :: more ∧ first ≠ '|' ∧ first ≠ '/' ∧
      (Token.isSpace first = true →
        Token.isSpace second = false ∧ second ≠ '|' ∧ second ≠ '/') := by
  rcases chars with _ | ⟨first, _ | ⟨second, more⟩⟩
  · cases opens
  · cases opens
  · refine ⟨first, second, more, rfl, ?_⟩
    simp only [opensWithoutMark, Bool.and_eq_true, bne_iff_ne, Bool.or_eq_true,
      Bool.not_eq_true'] at opens
    obtain ⟨⟨noBar, noSlash⟩, afterSpace⟩ := opens
    refine ⟨noBar, noSlash, fun space => ?_⟩
    rcases afterSpace with noSpace | ⟨⟨noSpace, secondBar⟩, secondSlash⟩
    · rw [space] at noSpace
      cases noSpace
    · exact ⟨noSpace, secondBar, secondSlash⟩

/-- No turn of the block goes on like a text behind the first member of a union does. -/
theorem opensWithoutMark_of_isRotated {turn : List Char} (turned : repeatedBlock ~r turn) :
    opensWithoutMark turn = true := by
  have turns : repeatedBlock.cyclicPermutations.all opensWithoutMark = true := by decide
  exact List.all_eq_true.1 turns turn (List.mem_cyclicPermutations_iff.2 turned.symm)

theorem exists_toList_typeMadeBy (first : String) (others : List String) :
    ∃ rest, (typeMadeBy (first :: others)).toList =
      "ReturnType<typeof ".toList ++ first.toList ++ rest := by
  cases others with
  | nil => exact ⟨['>'], by simp [typeMadeBy, Text.join]⟩
  | cons second others =>
    refine ⟨(" | " ++ Text.join " | " ((second :: others).map ("typeof " ++ ·)) ++ ">").toList, ?_⟩
    simp [typeMadeBy, Text.join, String.intercalate_cons_cons]

theorem returnType_append (tail : List Char) :
    "eturnType<typeof ".toList ++ 'r' :: tail = repeatedBlock ++ tail := by
  have joined : "eturnType<typeof ".toList ++ ['r'] = repeatedBlock := by decide
  rw [← joined, List.append_assoc, List.singleton_append]

/-- Behind the first member of a union blanks are followed by a bar, or by a comment. -/
def IsBehindMember (chars : List Char) : Prop :=
  ∃ blanks c more, chars = blanks ++ c :: more ∧ (∀ blank ∈ blanks, Token.isSpace blank = true) ∧
    (c = '|' ∨ c = '/')

theorem not_prefix_of_isRotated {turn chars : List Char} (turned : repeatedBlock ~r turn)
    (behind : IsBehindMember chars) : ¬ turn <+: chars := by
  obtain ⟨blanks, c, more, rfl, spaces, mark⟩ := behind
  obtain ⟨first, second, rest, rfl, noBar, noSlash, afterSpace⟩ :=
    exists_of_opensWithoutMark (opensWithoutMark_of_isRotated turned)
  intro isPrefix
  rcases blanks with _ | ⟨blank, _ | ⟨next, blanks⟩⟩
  · obtain ⟨rfl, _⟩ := List.cons_prefix_cons.1 isPrefix
    exact mark.elim noBar noSlash
  · obtain ⟨rfl, inRest⟩ := List.cons_prefix_cons.1 isPrefix
    obtain ⟨rfl, _⟩ := List.cons_prefix_cons.1 inRest
    obtain ⟨_, others⟩ := afterSpace (spaces first List.mem_cons_self)
    exact mark.elim others.1 others.2
  · obtain ⟨rfl, inRest⟩ := List.cons_prefix_cons.1 isPrefix
    obtain ⟨rfl, _⟩ := List.cons_prefix_cons.1 inRest
    have noSpace := (afterSpace (spaces first List.mem_cons_self)).1
    rw [spaces second (by simp)] at noSpace
    cases noSpace

/-- A union is no type of actions whose first part is named after its own first member. -/
theorem typeMadeBy_ne {text member : String} {others : List String} {behind : List Char}
    (chars : text.toList = member.toList ++ behind) (isBehind : IsBehindMember behind) :
    typeMadeBy (Text.decapitalize member :: others) ≠ text := by
  rintro rfl
  obtain ⟨rest, made⟩ := exists_toList_typeMadeBy (Text.decapitalize member) others
  have opened : "ReturnType<typeof ".toList = 'R' :: "eturnType<typeof ".toList := by decide
  rw [made, opened, List.cons_append, List.cons_append] at chars
  cases first : member.toList with
  | nil =>
    obtain ⟨blanks, c, more, rfl, spaces, mark⟩ := isBehind
    rw [first] at chars
    cases blanks with
    | nil =>
      obtain ⟨rfl, _⟩ := List.cons.inj chars
      revert mark
      decide
    | cons blank blanks =>
      obtain ⟨rfl, _⟩ := List.cons.inj chars
      exact absurd (spaces _ List.mem_cons_self) (by decide)
  | cons c tail =>
    rw [first, List.cons_append] at chars
    obtain ⟨rfl, same⟩ := List.cons.inj chars
    have lowered : (Text.decapitalize member).toList = 'r' :: tail := by
      rw [Text.decapitalize, first, String.toList_ofList]
      rfl
    rw [lowered, returnType_append] at same
    obtain ⟨turn, turned, isPrefix⟩ := exists_isRotated_of_append_eq same.symm
    exact not_prefix_of_isRotated turned isBehind isPrefix

/-! ## Texts of unions -/

theorem IsBehindMember.append {chars : List Char} (behind : IsBehindMember chars)
    (more : List Char) : IsBehindMember (chars ++ more) := by
  obtain ⟨blanks, c, rest, rfl, others⟩ := behind
  exact ⟨blanks, c, rest ++ more, by rw [List.append_assoc, List.cons_append], others⟩

/-- The text of two spans of which one starts where the other stops. -/
theorem Text.toList_slice_append {text : String} {lower middle upper : Nat}
    (front : (Span.mk lower middle).IsIn text) (back : (Span.mk middle upper).IsIn text) :
    (slice text ⟨lower, upper⟩).toList =
      (slice text ⟨lower, middle⟩).toList ++ (slice text ⟨middle, upper⟩).toList := by
  obtain ⟨before, inFront, between, inBack, behind, chars, frontAt, backAt⟩ :=
    Span.exists_parts front back (Nat.le_refl _)
  obtain ⟨rfl, rfl⟩ := Span.mk.inj frontAt
  obtain ⟨same, rfl⟩ := Span.mk.inj backAt
  obtain rfl : between = [] := by
    simp only [String.utf8Len_append] at same
    exact String.utf8Len_eq_zero.1 (by omega)
  rw [List.append_nil] at chars same ⊢
  have wholeChars : text.toList = before ++ (inFront ++ inBack) ++ behind := by
    rw [chars, List.append_assoc before]
  have frontChars : text.toList = before ++ inFront ++ (inBack ++ behind) := by
    rw [chars, List.append_assoc]
  have whole := slice_eq wholeChars
  rw [String.utf8Len_append, ← Nat.add_assoc] at whole
  rw [slice_eq frontChars, same, slice_eq chars, String.utf8Len_append, whole]
  simp

theorem isBehindMember_of_adjoins {text : String} {c : Char} {part next whole : Span}
    (adjoins : part.Adjoins text next) (opens : next.OpensWith text c) (mark : c = '|' ∨ c = '/')
    (nextIn : next.IsIn text) (wholeIn : whole.IsIn text) (stop : next.stop ≤ whole.stop) :
    IsBehindMember (Text.slice text ⟨part.stop, whole.stop⟩).toList := by
  have wide := opens.wide nextIn
  obtain ⟨blanks, left, spaces, placed, start⟩ := adjoins
  have reached : ((Token.Position.mk part.stop (blanks ++ left)).skip blanks left).offset =
      next.start := by
    rw [start, Token.Position.skip, Token.width_eq]
  have between := placed.slice_skip rfl
  have blanksIn := (placed.skip rfl).2
  rw [reached] at between blanksIn
  have backIn : (Span.mk next.start whole.stop).IsIn text :=
    ⟨(wide.trans_le stop).le, nextIn.start_isBoundary, wholeIn.stop_isBoundary⟩
  have isFirst : (Text.slice text ⟨next.start, whole.stop⟩).toList.head? = some c := by
    rw [← Text.head?_slice nextIn backIn rfl stop (.inl wide)]
    exact opens
  obtain ⟨more, chars⟩ := List.head?_eq_some_iff.1 isFirst
  refine ⟨blanks, c, more, ?_, spaces, mark⟩
  rw [Text.toList_slice_append blanksIn backIn, between, chars, String.toList_ofList]

namespace Node

variable {text : String} {union : Node}

/-- How the text of a union starts: with a bar, or with its first member and then a bar or a
comment. -/
inductive Opens (text : String) (union : Node) : Prop where
  | leading (opens : union.span.OpensWith text '|')
  | behind {first : Node} {others : List Node} {chars : List Char}
      (members : union.unionMembers = first :: others)
      (own : (union.textIn text).toList = (first.textIn text).toList ++ chars)
      (isBehind : IsBehindMember chars)

theorem opensWith_of_first {first : Node} {rest : List Node} {c : Char}
    (sound : union.IsSound text) (children : union.children = first :: rest)
    (opens : first.span.OpensWith text c) : union.span.OpensWith text c := by
  have isFirst : first ∈ union.children := children ▸ List.mem_cons_self
  have firstIn := (sound.child isFirst).placed.isIn
  have within := sound.placed.contains_of_mem_descendants
    (mem_descendants_of_child isFirst (self_mem_descendants first))
  have wide := opens.wide firstIn
  have start := (sound.first (by omega) children).1
  rw [Span.OpensWith, ← Text.head?_slice firstIn sound.placed.isIn start within.2 (.inl wide)]
  exact opens

theorem unionMembers_of_ne {node : Node} (other : node.kind ≠ .unionType) :
    node.unionMembers = [node] := by
  obtain ⟨kind, role, span, children⟩ := node
  rw [unionMembers, if_neg other]

theorem exists_unionMembers {first : Node} {rest : List Node}
    (isUnion : union.kind = .unionType) (children : union.children = first :: rest)
    (named : first.isNamed = true) (noComment : first.isComment = false) :
    ∃ others, union.unionMembers = first.unionMembers ++ others := by
  obtain ⟨kind, role, span, _⟩ := union
  cases children
  refine ⟨unionMembersOfAll rest, ?_⟩
  rw [unionMembers, if_pos isUnion, unionMembersOfAll, named, noComment]
  rfl

theorem opens_of_isUnion (isUnion : union.kind = .unionType) (sound : union.IsSound text)
    (formed : union.AllFormed text) (wide : ∀ node ∈ union.descendants,
      node.span.start < node.span.stop) : union.Opens text := by
  induction union using Node.inductionOnChildren with
  | ofChildren union inductionHypothesis =>
    cases (formed union (self_mem_descendants union)).hasBar isUnion with
    | leading children opens => exact .leading (opensWith_of_first sound children opens)
    | @behind members next rest children named noComment adjoins opens =>
      have isFirst : members ∈ union.children := children ▸ List.mem_cons_self
      have isSecond : next ∈ union.children := by simp [children]
      have below {inner : Node} (inside : inner ∈ members.descendants) :
          inner ∈ union.descendants := mem_descendants_of_child isFirst inside
      have membersIn := (sound.child isFirst).placed.isIn
      have nextIn := (sound.child isSecond).placed.isIn
      have unionIn := sound.placed.isIn
      have withinFirst := sound.placed.contains_of_mem_descendants
        (mem_descendants_of_child isFirst (self_mem_descendants members))
      have withinSecond := sound.placed.contains_of_mem_descendants
        (mem_descendants_of_child isSecond (self_mem_descendants next))
      have start := (sound.first (wide union (self_mem_descendants union)) children).1
      obtain ⟨others, listed⟩ := exists_unionMembers isUnion children named noComment
      -- the node behind the first operand is the bar, or a comment in front of it
      have isBehind : IsBehindMember
          (Text.slice text ⟨members.span.stop, union.span.stop⟩).toList :=
        opens.elim
          (isBehindMember_of_adjoins adjoins · (.inl rfl) nextIn unionIn withinSecond.2)
          (isBehindMember_of_adjoins adjoins · (.inr rfl) nextIn unionIn withinSecond.2)
      have own : (union.textIn text).toList = (members.textIn text).toList ++
          (Text.slice text ⟨members.span.stop, union.span.stop⟩).toList := by
        have same : Span.mk union.span.start members.span.stop = members.span :=
          Span.eq_of_offsets start.symm rfl
        have joined := Text.toList_slice_append (same ▸ membersIn)
          ⟨withinFirst.2, membersIn.stop_isBoundary, unionIn.stop_isBoundary⟩
        rwa [same] at joined
      -- the first operand is a union of its own, whose members come first, or the first member
      by_cases nested : members.kind = .unionType
      · cases inductionHypothesis members isFirst nested (sound.child isFirst)
          (fun inner inside => formed inner (below inside))
          (fun inner inside => wide inner (below inside)) with
        | leading opens => exact .leading (opensWith_of_first sound children opens)
        | behind listedInner ownInner behindInner =>
          rw [ownInner, List.append_assoc] at own
          rw [listedInner] at listed
          exact .behind listed own (behindInner.append _)
      · rw [unionMembers_of_ne nested] at listed
        exact .behind listed own isBehind

end Node

namespace Tree

variable {text : String} {statement union : Node}

/-- The type that a union of a statement is replaced by is not what stands there. -/
theorem unionType_ne (member : statement ∈ (parse text).children)
    (inside : union ∈ statement.descendants) (isUnion : union.kind = .unionType) :
    Site.unionType text union ≠ union.textIn text := by
  have sound : statement.IsSound text :=
    ⟨(isPlaced_parse text).child member, isTight_of_mem_children member⟩
  have opens : union.Opens text := by
    refine Node.opens_of_isUnion isUnion (sound.below inside) (fun inner below => ?_)
      fun inner below => wide_of_mem_children member (Node.descendants_trans inside below)
    exact allFormed_parse text inner
      (Node.mem_descendants_of_child member (Node.descendants_trans inside below))
  cases opens with
  | leading opens =>
    intro same
    have opened : "ReturnType<".toList = 'R' :: "eturnType<".toList := by decide
    rw [Span.OpensWith, ← Node.textIn, ← same, Site.unionType, typeMadeBy, String.toList_append,
      String.toList_append, opened] at opens
    cases opens
  | behind members own isBehind =>
    rw [Site.unionType, members]
    exact typeMadeBy_ne own isBehind

end Tree

end CreatorMigration
