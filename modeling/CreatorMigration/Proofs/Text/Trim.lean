import CreatorMigration.Text.Basic
import Mathlib.Data.List.TakeWhile

/-! # Trimmed texts

A text is trimmed down to the characters from its first to its last one that is not blank.
-/

namespace CreatorMigration.Text

/-- A text that neither starts nor ends with a blank. -/
structure IsTrimmed (chars : List Char) : Prop where
  first : ∀ c ∈ chars.head?, isBlank c = false
  last : ∀ c ∈ chars.getLast?, isBlank c = false

theorem isBlank_of_head?_trimStartChars {chars : List Char} :
    ∀ c ∈ (trimStartChars chars).head?, isBlank c = false := by
  intro c isFirst
  have stopped := List.head?_dropWhile_not isBlank chars
  rwa [show (chars.dropWhile isBlank).head? = some c from isFirst] at stopped

theorem trimStartChars_append (front : List Char) {back : List Char} (nonempty : back ≠ [])
    (first : ∀ c ∈ back.head?, isBlank c = false) :
    trimStartChars (front ++ back) = trimStartChars front ++ back := by
  obtain ⟨c, rest, rfl⟩ := List.exists_cons_of_ne_nil nonempty
  have stays : (c :: rest).dropWhile isBlank = c :: rest :=
    List.dropWhile_cons_of_neg (by simp [first c rfl])
  unfold trimStartChars
  rw [List.dropWhile_append, stays]
  split
  · next none => rw [List.isEmpty_iff.1 none, List.nil_append]
  · rfl

/-- Of a text around trimmed characters only what is in front of them or behind them is cut. -/
theorem trimChars_append (front back : List Char) {part : List Char} (trimmed : IsTrimmed part)
    (nonempty : part ≠ []) :
    trimChars (front ++ part ++ back) =
      trimStartChars front ++ part ++ (trimStartChars back.reverse).reverse := by
  have firstThere : ∀ c ∈ (part ++ back).head?, isBlank c = false := by
    rw [List.head?_append, List.head?_eq_some_head nonempty, Option.some_or]
    exact fun c isFirst => trimmed.first c (by rwa [List.head?_eq_some_head nonempty])
  have lastThere : ∀ c ∈ (part.reverse ++ (trimStartChars front).reverse).head?,
      isBlank c = false := by
    rw [List.head?_append, List.head?_reverse, List.getLast?_eq_some_getLast nonempty,
      Option.some_or]
    exact fun c isLast => trimmed.last c (by rwa [List.getLast?_eq_some_getLast nonempty])
  rw [trimChars, List.append_assoc, trimStartChars_append front (by simp [nonempty]) firstThere]
  simp only [List.reverse_append, List.append_assoc]
  rw [trimStartChars_append back.reverse (by simp [nonempty]) lastThere]
  simp

theorem trimChars_eq_self {chars : List Char} (trimmed : IsTrimmed chars) :
    trimChars chars = chars := by
  by_cases none : chars = []
  · rw [none]
    rfl
  · have same := trimChars_append [] [] trimmed none
    rwa [List.nil_append, List.append_nil, List.reverse_nil, trimStartChars, List.dropWhile_nil,
      List.nil_append, List.reverse_nil, List.append_nil] at same

theorem isTrimmed_trimChars (chars : List Char) : IsTrimmed (trimChars chars) where
  first := by
    -- what is cut off the end leaves a prefix of what starts with no blank
    intro c isFirst
    have front : trimChars chars <+: trimStartChars chars := by
      rw [trimChars, ← List.reverse_suffix, List.reverse_reverse]
      exact List.dropWhile_suffix isBlank
    obtain ⟨back, joined⟩ := front
    refine @isBlank_of_head?_trimStartChars chars c ?_
    rw [← joined, List.head?_append, Option.mem_def.1 isFirst, Option.some_or]
    rfl
  last := by
    intro c isLast
    rw [trimChars, List.getLast?_reverse] at isLast
    exact isBlank_of_head?_trimStartChars c isLast

end CreatorMigration.Text
