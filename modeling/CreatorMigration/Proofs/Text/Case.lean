import CreatorMigration.Text.Case

/-! # Characters of lower-case texts

Lowering a character never makes a mark of ASCII out of it, so it makes no dot either.
-/

namespace CreatorMigration.Text

theorem toNat_ofNat (code : Nat) : (Char.ofNat code).toNat = code ∨ (Char.ofNat code).toNat = 0 := by
  by_cases valid : code.isValidChar
  · rw [Char.ofNat, dif_pos valid]
    exact .inl rfl
  · rw [Char.ofNat, dif_neg valid]
    exact .inr rfl

/-- Every run of letters is lowered to letters behind the dot. -/
theorem dot_lt_of_mem_caseRuns : ∀ run ∈ caseRuns, (0x2E : Int) < run.first + run.offset := by
  decide +kernel

theorem CaseRun.apply_ne_dot {run : CaseRun} (member : run ∈ caseRuns) {code : Nat}
    (covered : run.covers code = true) : run.apply code ≠ '.' := by
  have bound := dot_lt_of_mem_caseRuns run member
  have above : run.first ≤ code := by
    simp only [covers, Bool.and_eq_true, decide_eq_true_eq] at covered
    exact covered.1.1
  intro dot
  have value : (run.apply code).toNat = 0x2E := by rw [dot]; rfl
  -- a code that is no character becomes the null character, which is no dot either
  rcases toNat_ofNat (Int.toNat (code + run.offset)) with same | zero
  · rw [CaseRun.apply, same] at value
    omega
  · rw [CaseRun.apply, zero] at value
    cases value

theorem toLower_ne_dot {c : Char} (other : c ≠ '.') : c.toLower ≠ '.' := by
  unfold Char.toLower
  split
  · next upper =>
    intro dot
    have value : (c.val + 32).toNat = 46 := congrArg (fun lowered => lowered.val.toNat) dot
    have atLeast : 65 ≤ c.val.toNat := upper.1
    have atMost : c.val.toNat ≤ 90 := upper.2
    rw [UInt32.toNat_add] at value
    have sum : (c.val.toNat + 32) % 2 ^ 32 = 46 := value
    omega
  · exact other

/-- A character that is no dot is lowered to no dot. -/
theorem dot_notMem_lowerChar {c : Char} (other : c ≠ '.') : '.' ∉ lowerChar c := by
  unfold lowerChar
  split
  · simpa using (toLower_ne_dot other).symm
  · split
    · decide
    · split
      · next run found =>
        have covered := List.find?_some found
        simpa using (CaseRun.apply_ne_dot (List.mem_of_find?_eq_some found) covered).symm
      · simpa using other.symm

theorem dot_notMem_decapitalize {text : String} (absent : '.' ∉ text.toList) :
    '.' ∉ (decapitalize text).toList := by
  rw [decapitalize, String.toList_ofList]
  cases chars : text.toList with
  | nil => simp [lowerFirstOf]
  | cons first rest =>
    rw [chars, List.mem_cons, not_or] at absent
    rw [lowerFirstOf, List.mem_append, not_or]
    exact ⟨dot_notMem_lowerChar (Ne.symm absent.1), absent.2⟩

end CreatorMigration.Text
