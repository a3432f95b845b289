/-! # Tables

A `Table` maps keys to values and lists its entries in the order in which the keys first came. A key
that comes again keeps its place and takes the later value, which `Table.find?_ofEntries` says.
-/

namespace CreatorMigration

abbrev Table (κ α : Type) := List (κ × α)

namespace Table

variable {κ α : Type} [BEq κ]

/-- Changes the value of a key, which is `start` for a key that is new. -/
def update (key : κ) (start : α) (change : α → α) : Table κ α → Table κ α
  | [] => [(key, change start)]
  | (other, value) :: rest =>
      if key == other then (other, change value) :: rest
      else (other, value) :: update key start change rest

def insert (key : κ) (value : α) (table : Table κ α) : Table κ α :=
  update key value (fun _ => value) table

def ofEntries (entries : List (κ × α)) : Table κ α :=
  entries.foldl (fun table entry => insert entry.1 entry.2 table) []

def find? (key : κ) (table : Table κ α) : Option α := table.lookup key

def contains (key : κ) (table : Table κ α) : Bool := (table.find? key).isSome

def keys (table : Table κ α) : List κ := table.map Prod.fst

/-! ## Looking up -/

variable [LawfulBEq κ]

theorem find?_insert (key other : κ) (value : α) (table : Table κ α) :
    find? key (insert other value table) =
      if key == other then some value else find? key table := by
  unfold insert find?
  fun_induction update other value (fun _ => value) table with
  | case1 =>
    rw [List.lookup_cons]
    cases key == other <;> rfl
  | case2 first kept rest same =>
    cases eq_of_beq same
    rw [List.lookup_cons, List.lookup_cons]
    cases key == other <;> rfl
  | case3 first kept rest different ih =>
    rw [List.lookup_cons, List.lookup_cons]
    cases found : key == first with
    | false => exact ih
    | true =>
      cases eq_of_beq found
      have other : ¬(key == other) = true := fun same =>
        different (eq_of_beq same ▸ BEq.rfl)
      simp [other]

theorem find?_foldl_insert (key : κ) (entries : List (κ × α)) (table : Table κ α) :
    find? key (entries.foldl (fun table entry => insert entry.1 entry.2 table) table) =
      (((entries.filter fun entry => key == entry.1).getLast?).map Prod.snd).or
        (find? key table) := by
  induction entries generalizing table with
  | nil => rfl
  | cons first rest ih =>
    rw [List.foldl_cons, ih, find?_insert, List.filter_cons]
    cases key == first.1 with
    | false => rfl
    | true =>
      simp only [if_true, List.getLast?_cons]
      cases (rest.filter fun entry => key == entry.1).getLast? <;> rfl

/-- Of several entries for a key the last one counts. -/
theorem find?_ofEntries (key : κ) (entries : List (κ × α)) :
    find? key (ofEntries entries) =
      ((entries.filter fun entry => key == entry.1).getLast?).map Prod.snd := by
  rw [ofEntries, find?_foldl_insert]
  exact Option.or_none

end Table

end CreatorMigration
