import CreatorMigration.Proofs.Naming
import CreatorMigration.Proofs.Text.Trim
import CreatorMigration.Tree.Token.Lexer

/-! # Lowered characters

Lowering leaves a character as it is or makes letters of it that may start a name and are lowered no
further.

* `eq_or_isLowered`: what a character is lowered to.
* `lowerFirstOf_lowerFirstOf`: a lowered text is not lowered any further.
* `append_nil_of_lowerFirstOf`: a text is not lowered to what a part of it is lowered to.
-/

namespace CreatorMigration.Text

/-- Codes of characters that are no marks, no digits, no blanks and no capital letters of ASCII,
from the first to the last of each range. -/
def letterCodes : List (Nat × Nat) :=
  [(0x61, 0x7A), (0xA1, 0x12F), (0x131, 0x167F), (0x1681, 0x1FFF), (0x2070, 0x2FFF),
    (0x3001, 0xD7FF), (0xE000, 0xFEFE), (0xFF00, 0x10FFFF)]

def isLetterCode (code : Nat) : Bool :=
  letterCodes.any fun (first, last) => decide (first ≤ code) && decide (code ≤ last)

namespace CaseRun

def loweredFirst (run : CaseRun) : Nat := Int.toNat (run.first + run.offset)

def loweredLast (run : CaseRun) : Nat := Int.toNat (run.last + run.offset)

/-- All of a run is lowered into one range of letters. -/
def isWithinLetters (run : CaseRun) : Bool :=
  letterCodes.any fun (first, last) =>
    Nat.ble first run.loweredFirst && Nat.ble run.loweredLast last

/-- What a run is lowered to lies in front of the letters of another one, behind them or between
them. -/
def isLoweredPast (run other : CaseRun) : Bool :=
  Nat.blt run.loweredLast other.first || Nat.blt other.last run.loweredFirst ||
    (run.step == 2 || run.first == run.last) && other.step == 2 &&
      (run.loweredFirst - other.first) % 2 == 1

end CaseRun

theorem isWithinLetters_caseRuns : caseRuns.all CaseRun.isWithinLetters = true := by
  decide +kernel

theorem isLoweredPast_caseRuns :
    (caseRuns.all fun run => caseRuns.all run.isLoweredPast) = true := by
  decide +kernel

/-- A letter that may start a name and is lowered to itself. -/
structure IsLowered (c : Char) : Prop where
  lowered : lowerChar c = [c]
  letter : Token.isNameStart c = true
  visible : isBlank c = false

theorem isLetterCode_bounds {code : Nat} (letter : isLetterCode code = true) :
    0x61 ≤ code ∧ code ≤ 0x7A ∨ 0xA1 ≤ code ∧ code < 0x1680 ∧ code ≠ 0x130 ∨
      0x1680 < code ∧ code < 0x2000 ∨ 0x2070 ≤ code ∧ code < 0x3000 ∨
      0x3000 < code ∧ code < 0xD800 ∨ 0xE000 ≤ code ∧ code < 0xFEFF ∨
      0xFEFF < code ∧ code < 0x110000 := by
  simp only [isLetterCode, letterCodes, List.any_cons, List.any_nil, Bool.or_eq_true,
    Bool.and_eq_true, decide_eq_true_eq, Bool.false_eq_true, or_false] at letter
  omega

theorem isBlank_of_isLetterCode {c : Char} (letter : isLetterCode c.toNat = true) :
    isBlank c = false := by
  have bounds := isLetterCode_bounds letter
  simp only [isBlank, Bool.or_eq_false_iff, Bool.and_eq_false_iff, decide_eq_false_iff_not,
    beq_eq_false_iff_ne]
  omega

theorem isNameStart_of_isLetterCode {c : Char} (letter : isLetterCode c.toNat = true) :
    Token.isNameStart c = true := by
  have bounds := isLetterCode_bounds letter
  have low : (":;\x60\x22\x27@#.,|^&<=>+-*/\\%?!~()[]\x7b\x7d".toList.all fun mark =>
      Nat.blt mark.toNat 0x61 || Nat.blt 0x7A mark.toNat && Nat.blt mark.toNat 0xA1) = true := by
    decide +kernel
  -- no mark has the code of a letter, so the bounds decide
  have noMark : c ∉ ":;\x60\x22\x27@#.,|^&<=>+-*/\\%?!~()[]\x7b\x7d".toList := by
    intro member
    have apart := List.all_eq_true.1 low c member
    rw [Bool.or_eq_true, Bool.and_eq_true, Nat.blt_eq, Nat.blt_eq, Nat.blt_eq] at apart
    omega
  have noDigit : c.isDigit = false := by
    rw [Bool.eq_false_iff]
    intro digit
    rw [Char.isDigit, Bool.and_eq_true, decide_eq_true_iff, decide_eq_true_iff] at digit
    have upper : c.toNat ≤ 57 := digit.2
    omega
  have noSpace : Token.isSpace c = false := by
    rw [Token.isSpace, isBlank_of_isLetterCode letter]
    simp only [Bool.false_and, Bool.false_or, Bool.or_eq_false_iff, beq_eq_false_iff_ne]
    omega
  have visible : 0x20 ≤ c.toNat := by omega
  rw [Token.isNameStart, Token.isNamePart, noSpace, noDigit, decide_eq_true visible]
  simpa using noMark

theorem CaseRun.eq_of_covers {run : CaseRun} {code : Nat} (covered : run.covers code = true) :
    run.first ≤ code ∧ code ≤ run.last ∧ (code - run.first) % run.step = 0 := by
  simpa [covers, and_assoc] using covered

theorem isValidChar_of_isLetterCode {code : Nat} (letter : isLetterCode code = true) :
    code.isValidChar := by
  have bounds := isLetterCode_bounds letter
  unfold Nat.isValidChar
  omega

section

variable {run : CaseRun} {code : Nat}

theorem CaseRun.exists_apply (member : run ∈ caseRuns) (covered : run.covers code = true) :
    ∃ lowered : Nat, (lowered : Int) = code + run.offset ∧ isLetterCode lowered = true ∧
      (run.apply code).toNat = lowered := by
  obtain ⟨lower, upper, -⟩ := eq_of_covers covered
  have within := List.all_eq_true.1 isWithinLetters_caseRuns run member
  rw [isWithinLetters, List.any_eq_true] at within
  obtain ⟨⟨first, last⟩, listed, bounds⟩ := within
  simp only [Bool.and_eq_true, Nat.ble_eq, loweredFirst, loweredLast] at bounds
  have positive : 0 < first :=
    (by decide : ∀ range ∈ letterCodes, 0 < range.1) (first, last) listed
  have exact_ : ((Int.toNat (code + run.offset) : Nat) : Int) = code + run.offset :=
    Int.toNat_of_nonneg (by omega)
  have letter : isLetterCode (Int.toNat (code + run.offset)) = true := by
    refine List.any_eq_true.2 ⟨(first, last), listed, ?_⟩
    simp only [Bool.and_eq_true, decide_eq_true_eq]
    omega
  refine ⟨_, exact_, letter, ?_⟩
  rw [apply, Char.ofNat, dif_pos (isValidChar_of_isLetterCode letter)]
  rfl

/-- No run covers what another one lowers its letters to. -/
theorem CaseRun.not_covers_of_apply (member : run ∈ caseRuns) (covered : run.covers code = true)
    {other : CaseRun} (otherMember : other ∈ caseRuns) {lowered : Nat}
    (same : (lowered : Int) = code + run.offset) : other.covers lowered = false := by
  rw [Bool.eq_false_iff]
  intro otherCovered
  obtain ⟨lower, upper, steps⟩ := eq_of_covers covered
  obtain ⟨otherLower, otherUpper, otherSteps⟩ := eq_of_covers otherCovered
  have past := List.all_eq_true.1 (List.all_eq_true.1 isLoweredPast_caseRuns run member) other
    otherMember
  simp only [isLoweredPast, Bool.or_eq_true, Bool.and_eq_true, Nat.blt_eq, beq_iff_eq, loweredFirst,
    loweredLast] at past
  rcases past with (before | behind) | ⟨⟨odd, two⟩, parity⟩
  · omega
  · omega
  · rw [two] at otherSteps
    rcases odd with two | single
    · rw [two] at steps
      omega
    · omega

theorem isLowered_apply (member : run ∈ caseRuns) (covered : run.covers code = true) :
    IsLowered (run.apply code) := by
  obtain ⟨lowered, same, letter, value⟩ := CaseRun.exists_apply member covered
  have bounds := isLetterCode_bounds letter
  rw [← value] at letter
  refine ⟨?_, isNameStart_of_isLetterCode letter, isBlank_of_isLetterCode letter⟩
  have uncovered : caseRuns.find? (·.covers (run.apply code).toNat) = none := by
    rw [List.find?_eq_none]
    intro other otherMember otherCovered
    rw [value, CaseRun.not_covers_of_apply member covered otherMember same] at otherCovered
    cases otherCovered
  have noCapital : ¬ ((run.apply code).val ≥ 'A'.val ∧ (run.apply code).val ≤ 'Z'.val) := by
    rintro ⟨-, upper⟩
    have small : (run.apply code).toNat ≤ 90 := upper
    omega
  unfold lowerChar
  split
  · exact congrArg (fun lowered => [lowered]) (dif_neg noCapital)
  · rw [if_neg (by omega), uncovered]

end

theorem isLowered_of_all {chars : List Char}
    (checked : chars.all (fun c => lowerChar c == [c] && isLetterCode c.toNat) = true) :
    ∀ c ∈ chars, IsLowered c := by
  intro c member
  have both := List.all_eq_true.1 checked c member
  rw [Bool.and_eq_true, beq_iff_eq] at both
  exact ⟨both.1, isNameStart_of_isLetterCode both.2, isBlank_of_isLetterCode both.2⟩

/-- A character stays as it is or is lowered to letters that stay as they are. -/
theorem eq_or_isLowered (c : Char) : lowerChar c = [c] ∨ ∀ d ∈ lowerChar c, IsLowered d := by
  by_cases ascii : c.toNat < 0x80
  · have low : ∀ code < 0x80, lowerChar (Char.ofNat code) = [Char.ofNat code] ∨
        (lowerChar (Char.ofNat code)).all
          (fun d => lowerChar d == [d] && isLetterCode d.toNat) = true := by
      decide +kernel
    have here := low c.toNat ascii
    rw [Char.ofNat_toNat] at here
    exact here.imp_right isLowered_of_all
  · rw [lowerChar, if_neg ascii]
    split
    · exact .inr (isLowered_of_all (by decide +kernel))
    · cases found : caseRuns.find? (·.covers c.toNat) with
      | none => exact .inl rfl
      | some run =>
        refine .inr fun d member => ?_
        rw [List.mem_singleton.1 member]
        exact isLowered_apply (List.mem_of_find?_eq_some found)
          (@List.find?_some _ (fun other => other.covers c.toNat) run caseRuns found)

/-! ## Texts -/

theorem lowerChar_ne_nil (c : Char) : lowerChar c ≠ [] := by
  unfold lowerChar
  split
  · simp
  · split
    · simp
    · split <;> simp

/-- One letter alone is lowered to two characters. -/
theorem length_lowerChar (c : Char) :
    (lowerChar c).length = 1 ∨ lowerChar c = ['i', Char.ofNat 0x307] ∧ c.toNat = 0x130 := by
  unfold lowerChar
  split
  · exact .inl rfl
  · split
    · next same => exact .inr ⟨rfl, same⟩
    · split <;> exact .inl rfl

theorem lowerFirstOf_lowerFirstOf (chars : List Char) :
    lowerFirstOf (lowerFirstOf chars) = lowerFirstOf chars := by
  cases chars with
  | nil => rfl
  | cons c rest =>
    rw [lowerFirstOf]
    obtain ⟨d, others, lowered⟩ := List.exists_cons_of_ne_nil (lowerChar_ne_nil c)
    rcases eq_or_isLowered c with same | all
    · rw [same, List.singleton_append, lowerFirstOf, same, List.singleton_append]
    · have first := (all d (by rw [lowered]; exact List.mem_cons_self ..)).lowered
      rw [lowered, List.cons_append, lowerFirstOf, first, List.singleton_append]

/-- What a text is lowered to is not what a part of it is lowered to. -/
theorem append_nil_of_lowerFirstOf {front part back : List Char} (nonempty : part ≠ [])
    (same : lowerFirstOf (front ++ part ++ back) = lowerFirstOf part) : front = [] ∧ back = [] := by
  obtain ⟨c, rest, rfl⟩ := List.exists_cons_of_ne_nil nonempty
  cases front with
  | nil =>
    rw [List.nil_append, List.cons_append, lowerFirstOf, lowerFirstOf] at same
    have rests := List.append_cancel_left same
    exact ⟨rfl, List.append_right_eq_self.1 rests⟩
  | cons first others =>
    rw [List.cons_append, List.cons_append, lowerFirstOf, lowerFirstOf] at same
    have lengths := congrArg List.length same
    have wide := List.length_pos_iff.2 (lowerChar_ne_nil first)
    simp only [List.length_append, List.length_cons] at lengths
    -- only the one letter that is lowered to two characters could make up for what stands in front
    rcases length_lowerChar c with single | ⟨two, dotted⟩
    · omega
    · rw [two] at same lengths
      have short : (lowerChar first).length = 1 ∧ others = [] ∧ back = [] := by
        simp only [List.length_cons, List.length_nil] at lengths
        exact ⟨by omega, List.eq_nil_of_length_eq_zero (by omega),
          List.eq_nil_of_length_eq_zero (by omega)⟩
      obtain ⟨lower, rfl, rfl⟩ := short
      obtain ⟨d, lowered⟩ := List.length_eq_one_iff.1 lower
      rw [lowered] at same
      simp only [List.nil_append, List.append_nil, List.cons_append, List.cons.injEq] at same
      rw [same.2.1] at dotted
      exact absurd dotted (by decide)

theorem isBlank_of_mem_lowerChar {c d : Char} (visible : isBlank c = false)
    (member : d ∈ lowerChar c) : isBlank d = false := by
  rcases eq_or_isLowered c with same | all
  · rw [same, List.mem_singleton] at member
    rwa [member]
  · exact (all d member).visible

theorem IsTrimmed.lowerFirstOf {chars : List Char} (trimmed : IsTrimmed chars) :
    IsTrimmed (lowerFirstOf chars) := by
  cases chars with
  | nil => exact trimmed
  | cons c rest =>
    have lowered : ∀ d ∈ lowerChar c, isBlank d = false := fun d =>
      isBlank_of_mem_lowerChar (trimmed.first c rfl)
    refine ⟨fun d isFirst => lowered d ?_, fun d isLast => ?_⟩
    · rw [Text.lowerFirstOf, List.head?_append,
        List.head?_eq_some_head (lowerChar_ne_nil c)] at isFirst
      cases isFirst
      exact List.head_mem _
    · rw [Text.lowerFirstOf, List.getLast?_append] at isLast
      -- the last character is a lowered one only if the first was the only one
      cases behind : rest.getLast? with
      | none =>
        rw [behind, Option.none_or] at isLast
        exact lowered d (List.mem_of_getLast? isLast)
      | some last =>
        rw [behind, Option.some_or] at isLast
        cases isLast
        refine trimmed.last d ?_
        rw [List.getLast?_cons, behind]
        rfl

end CreatorMigration.Text

namespace CreatorMigration

/-! ## Names of factories -/

theorem isTrimmed_unqualified (label : String) : Text.IsTrimmed (unqualified label).toList := by
  rw [unqualified, Text.trim, String.toList_ofList]
  exact Text.isTrimmed_trimChars _

theorem unqualified_eq_self {text : String} (undotted : IsUndotted text)
    (trimmed : Text.IsTrimmed text.toList) : unqualified text = text := by
  rw [unqualified, Text.afterLast_of_notMem undotted, Text.trim, Text.trimChars_eq_self trimmed,
    String.ofList_toList]

/-- The name of a factory names the factory itself. -/
theorem factoryName_factoryName (label : String) :
    factoryName (factoryName label) = factoryName label := by
  have trimmed : Text.IsTrimmed (factoryName label).toList := by
    rw [factoryName, Text.decapitalize, String.toList_ofList]
    exact (isTrimmed_unqualified label).lowerFirstOf
  have same := unqualified_eq_self (isUndotted_factoryName label) trimmed
  calc factoryName (factoryName label)
      = Text.decapitalize (factoryName label) := by rw [factoryName, same]
    _ = factoryName label := by
      rw [factoryName, Text.decapitalize, Text.decapitalize, String.toList_ofList,
        Text.lowerFirstOf_lowerFirstOf]

end CreatorMigration
