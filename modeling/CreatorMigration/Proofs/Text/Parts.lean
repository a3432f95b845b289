import CreatorMigration.Text.Basic

/-! # Texts with a separator

How `Text.splitOn`, `Text.join` and `Text.afterLast` take each other back.
-/

namespace CreatorMigration.Text

/-! ## Segments -/

theorem notMem_of_mem_splitOn {α : Type} [BEq α] [LawfulBEq α] {mark : α} {chars piece : List α}
    (member : piece ∈ chars.splitOn mark) : mark ∉ piece := by
  induction chars generalizing piece with
  | nil => simp_all [List.splitOn_nil]
  | cons first rest inductionHypothesis =>
    rw [List.splitOn_cons_eq_if_modifyHead] at member
    split at member
    · rcases List.mem_cons.1 member with rfl | member
      · exact List.not_mem_nil
      · exact inductionHypothesis member
    · next different =>
      cases pieces : rest.splitOn mark with
      | nil => exact absurd pieces (List.splitOn_ne_nil mark rest)
      | cons head tail =>
        rw [pieces] at member inductionHypothesis
        rcases List.mem_cons.1 member with rfl | member
        · intro found
          rcases List.mem_cons.1 found with rfl | found
          · exact different BEq.rfl
          · exact inductionHypothesis List.mem_cons_self found
        · exact inductionHypothesis (List.mem_cons_of_mem _ member)

theorem slash_notMem_of_mem_splitOn {text piece : String} (member : piece ∈ splitOn '/' text) :
    '/' ∉ piece.toList := by
  obtain ⟨chars, charsMember, rfl⟩ := List.mem_map.1 member
  rw [String.toList_ofList]
  exact notMem_of_mem_splitOn charsMember

theorem splitOn_join {texts : List String} (nonempty : texts ≠ [])
    (slashFree : ∀ text ∈ texts, '/' ∉ text.toList) : splitOn '/' (join "/" texts) = texts := by
  have pieces : (texts.map String.toList) ≠ [] := by simpa using nonempty
  have free : ∀ piece ∈ texts.map String.toList, '/' ∉ piece := by
    intro piece member
    obtain ⟨text, textMember, rfl⟩ := List.mem_map.1 member
    exact slashFree text textMember
  have separator : "/".toList = ['/'] := by decide
  rw [splitOn, join, String.toList_intercalate, separator,
    List.splitOn_intercalate '/' free pieces, List.map_map]
  simp [Function.comp_def, String.ofList_toList]

theorem splitOn_slash (front back : String) :
    splitOn '/' (front ++ "/" ++ back) = splitOn '/' front ++ splitOn '/' back := by
  have chars : (front ++ "/" ++ back).toList = front.toList ++ '/' :: back.toList := by simp
  rw [splitOn, chars, List.splitOn_append_cons_self, List.map_append]
  rfl

theorem splitOn_empty : splitOn '/' "" = [""] := by decide

theorem eq_empty_of_splitOn {text : String} (split : splitOn '/' text = [""]) : text = "" := by
  have pieces : text.toList.splitOn '/' = [[]] := by
    have mapped := congrArg (List.map String.toList) split
    simpa [splitOn, Function.comp_def] using mapped
  have joined : ['/'].intercalate (text.toList.splitOn '/') = text.toList :=
    List.intercalate_splitOn '/'
  rw [pieces] at joined
  exact String.toList_eq_nil_iff.1 joined.symm

theorem exists_of_hasEnd {tail text : String} (ends : hasEnd tail text = true) :
    ∃ front, text = front ++ tail := by
  obtain ⟨front, joined⟩ := List.isSuffixOf_iff_suffix.1 ends
  refine ⟨String.ofList front, ?_⟩
  rw [← String.toList_inj, String.toList_append, String.toList_ofList, joined]

theorem join_concat_append (texts : List String) (last tail : String) :
    join "/" (texts ++ [last]) ++ tail = join "/" (texts ++ [last ++ tail]) := by
  induction texts with
  | nil => simp [join]
  | cons first rest inductionHypothesis =>
    unfold join at *
    rw [List.cons_append, List.cons_append, String.intercalate_cons_of_ne_nil (by simp),
      String.intercalate_cons_of_ne_nil (by simp), String.append_assoc, inductionHypothesis]

/-! ## Behind the last mark -/

theorem afterLastChars_append (mark : Char) (front back : List Char) :
    afterLastChars mark (front ++ mark :: back) = afterLastChars mark back := by
  rw [afterLastChars, afterLastChars, List.reverse_append, List.reverse_cons, List.append_assoc,
    List.takeWhile_append]
  split
  · next whole =>
    rw [List.singleton_append, List.takeWhile_cons_of_neg (by simp), List.append_nil]
    exact congrArg List.reverse
      ((List.takeWhile_prefix (· != mark)).eq_of_length whole).symm
  · rfl

theorem afterLastChars_append_of_notMem {mark : Char} (front : List Char) {back : List Char}
    (absent : mark ∉ back) :
    afterLastChars mark (front ++ back) = afterLastChars mark front ++ back := by
  have unmarked : ∀ c ∈ back.reverse, (c != mark) = true := by
    intro c member
    have different : c ≠ mark := fun same => absent (same ▸ List.mem_reverse.1 member)
    simpa using different
  rw [afterLastChars, afterLastChars, List.reverse_append, List.takeWhile_append_of_pos unmarked,
    List.reverse_append, List.reverse_reverse]

theorem afterLastChars_of_notMem {mark : Char} {chars : List Char} (absent : mark ∉ chars) :
    afterLastChars mark chars = chars :=
  afterLastChars_append_of_notMem [] absent

theorem toList_dotted (front back : String) :
    (front ++ "." ++ back).toList = front.toList ++ '.' :: back.toList := by
  simp

theorem afterLast_dotted (front back : String) :
    afterLast '.' (front ++ "." ++ back) = afterLast '.' back := by
  rw [afterLast, afterLast, toList_dotted, afterLastChars_append]

theorem afterLast_of_notMem {mark : Char} {text : String} (absent : mark ∉ text.toList) :
    afterLast mark text = text := by
  rw [afterLast, afterLastChars_of_notMem absent, String.ofList_toList]

theorem exists_dotted {text : String} (dotted : '.' ∈ text.toList) :
    ∃ front back : String, text = front ++ "." ++ back ∧ '.' ∉ back.toList := by
  obtain ⟨back, front, split, absent⟩ :=
    List.eq_append_cons_of_mem (List.mem_reverse.2 dotted)
  have chars : text.toList = front.reverse ++ '.' :: back.reverse := by
    rw [← List.reverse_reverse text.toList, split]
    simp
  refine ⟨String.ofList front.reverse, String.ofList back.reverse, ?_, ?_⟩
  · rw [← String.toList_inj, toList_dotted, String.toList_ofList, String.toList_ofList, chars]
  · rwa [String.toList_ofList, List.mem_reverse]

end CreatorMigration.Text
