import CreatorMigration.Naming
import CreatorMigration.Proofs.Text.Case
import CreatorMigration.Proofs.Text.Parts
import Mathlib.Data.List.TakeWhile

/-! # Names of labels

The name of a label is that of its last part: the qualifier has no part in it, and it has no dot.
-/

namespace CreatorMigration

theorem unqualified_qualified (qualifier name : String) :
    unqualified (qualifier ++ "." ++ name) = unqualified name := by
  rw [unqualified, unqualified, Text.afterLast_dotted]

theorem factoryName_qualified (qualifier name : String) :
    factoryName (qualifier ++ "." ++ name) = factoryName name := by
  rw [factoryName, factoryName, unqualified_qualified]

/-- A text without dots, which is no access to a member. -/
def IsUndotted (text : String) : Prop := '.' ∉ text.toList

theorem Text.subset_of_trimChars (chars : List Char) : trimChars chars ⊆ chars := by
  intro c member
  have inner := (List.dropWhile_suffix Text.isBlank).subset (List.mem_reverse.1 member)
  exact (List.dropWhile_suffix Text.isBlank).subset (List.mem_reverse.1 inner)

theorem Text.notMem_afterLastChars (mark : Char) (chars : List Char) :
    mark ∉ afterLastChars mark chars := by
  intro member
  have other := List.mem_takeWhile_imp (List.mem_reverse.1 member)
  simp at other

theorem isUndotted_unqualified (label : String) : IsUndotted (unqualified label) := by
  rw [IsUndotted, unqualified, Text.trim, Text.afterLast, String.toList_ofList,
    String.toList_ofList]
  exact fun member => Text.notMem_afterLastChars '.' _ (Text.subset_of_trimChars _ member)

theorem isUndotted_factoryName (label : String) : IsUndotted (factoryName label) :=
  Text.dot_notMem_decapitalize (isUndotted_unqualified label)

end CreatorMigration
