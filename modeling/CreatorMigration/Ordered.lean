/-! # Ordered lists without repeats

Sets that are listed are kept as lists in a fixed order in which no element stands twice.

* `Ordered.sort` sorts by a test and keeps the order of elements that may stand either way.
* `Ordered.ofList` sorts; of several elements that the order does not tell apart the last one stays.
* `Ordered.insert` and `Ordered.union` add to such a list; an element that is there already stays.
* `Ordered.pairwise_ofList` says that each element of a sorted list comes strictly before the next,
  `Ordered.mem_ofList` that the list has all elements it is made of.
-/

namespace CreatorMigration.Ordered

variable {α : Type} (mayPrecede : α → α → Bool) (order : α → α → Ordering)

/-- Puts an element in front of the first one that it may precede. -/
def place (element : α) : List α → List α
  | [] => [element]
  | first :: rest =>
      if mayPrecede element first then element :: first :: rest else first :: place element rest

def sort : List α → List α
  | [] => []
  | first :: rest => place mayPrecede first (sort rest)

/-- Drops each element that the order does not tell apart from the one behind it. -/
def dropRepeats : List α → List α
  | first :: second :: rest =>
      if order first second = .eq then dropRepeats (second :: rest)
      else first :: dropRepeats (second :: rest)
  | short => short

def ofList (list : List α) : List α :=
  dropRepeats order (sort (fun left right => (order left right).isLE) list)

/-- Puts an element in its place, unless it is there already. -/
def insert (element : α) : List α → List α
  | [] => [element]
  | first :: rest =>
      match order element first with
      | .lt => element :: first :: rest
      | .eq => first :: rest
      | .gt => first :: insert element rest

def union (base added : List α) : List α :=
  added.foldl (fun list element => insert order element list) base

/-! ## Sorting -/

@[simp]
theorem mem_place {element other : α} (list : List α) :
    other ∈ place mayPrecede element list ↔ other = element ∨ other ∈ list := by
  fun_induction place mayPrecede element list with
  | case1 => simp
  | case2 first rest precedes => simp
  | case3 first rest behind ih => simp only [List.mem_cons, ih, or_left_comm]

@[simp]
theorem mem_sort {element : α} (list : List α) : element ∈ sort mayPrecede list ↔ element ∈ list := by
  induction list with
  | nil => rfl
  | cons first rest ih => rw [sort, mem_place, ih, List.mem_cons]

theorem perm_place (element : α) (list : List α) :
    (place mayPrecede element list).Perm (element :: list) := by
  fun_induction place mayPrecede element list with
  | case1 => exact .refl _
  | case2 => exact .refl _
  | case3 first rest behind ih => exact (ih.cons first).trans (.swap element first rest)

theorem perm_sort (list : List α) : (sort mayPrecede list).Perm list := by
  induction list with
  | nil => exact .refl _
  | cons first rest ih => exact (perm_place mayPrecede first _).trans (ih.cons first)

theorem pairwise_place
    (transitive : ∀ left middle right, mayPrecede left middle = true →
      mayPrecede middle right = true → mayPrecede left right = true)
    (total : ∀ left right, (mayPrecede left right || mayPrecede right left) = true)
    (element : α) (list : List α)
    (sorted : list.Pairwise fun left right => mayPrecede left right = true) :
    (place mayPrecede element list).Pairwise fun left right => mayPrecede left right = true := by
  fun_induction place mayPrecede element list with
  | case1 => exact List.pairwise_singleton _ _
  | case2 first rest precedes =>
    refine List.Pairwise.cons ?_ sorted
    intro other member
    cases member with
    | head => exact precedes
    | tail _ member =>
      exact transitive _ _ _ precedes ((List.pairwise_cons.1 sorted).1 other member)
  | case3 first rest behind ih =>
    refine List.Pairwise.cons ?_ (ih sorted.tail)
    intro other member
    rcases (mem_place mayPrecede rest).1 member with rfl | member
    · simpa [behind] using total first other
    · exact (List.pairwise_cons.1 sorted).1 other member

theorem pairwise_sort
    (transitive : ∀ left middle right, mayPrecede left middle = true →
      mayPrecede middle right = true → mayPrecede left right = true)
    (total : ∀ left right, (mayPrecede left right || mayPrecede right left) = true)
    (list : List α) :
    (sort mayPrecede list).Pairwise fun left right => mayPrecede left right = true := by
  induction list with
  | nil => exact .nil
  | cons first rest ih => exact pairwise_place mayPrecede transitive total first _ ih

/-- What is in order already stays as it is. -/
theorem sort_of_pairwise {list : List α}
    (sorted : list.Pairwise fun left right => mayPrecede left right = true) :
    sort mayPrecede list = list := by
  induction list with
  | nil => rfl
  | cons first rest ih =>
    obtain ⟨precedes, sortedRest⟩ := List.pairwise_cons.1 sorted
    rw [sort, ih sortedRest]
    cases rest with
    | nil => rfl
    | cons second rest => rw [place, if_pos (precedes second List.mem_cons_self)]

section

variable {holds : α → Bool} (eitherWay : ∀ left right, holds left = true → holds right = true →
  mayPrecede left right = true)

include eitherWay

theorem filter_place (element : α) (list : List α) :
    (place mayPrecede element list).filter holds = (element :: list).filter holds := by
  fun_induction place mayPrecede element list with
  | case1 => rfl
  | case2 => rfl
  | case3 first rest behind ih =>
    rw [List.filter_cons, ih, List.filter_cons, List.filter_cons, List.filter_cons]
    -- an element is only put behind one that it may not precede
    cases here : holds element with
    | false => simp
    | true =>
      have apart : ¬ holds first = true := fun passed => behind (eitherWay _ _ here passed)
      simp [apart]

/-- Elements that may stand either way stay in their order. -/
theorem filter_sort (list : List α) : (sort mayPrecede list).filter holds = list.filter holds := by
  induction list with
  | nil => rfl
  | cons first rest ih =>
    rw [sort, filter_place mayPrecede eitherWay, List.filter_cons, List.filter_cons, ih]

end

/-! ## Order -/

theorem subset_of_mem_dropRepeats {element : α} (list : List α) :
    element ∈ dropRepeats order list → element ∈ list := by
  fun_induction dropRepeats order list with
  | case1 first second rest same ih => exact fun member => List.mem_cons_of_mem _ (ih member)
  | case2 first second rest apart ih =>
    intro member
    cases member with
    | head => exact List.mem_cons_self
    | tail _ member => exact List.mem_cons_of_mem _ (ih member)
  | case3 => exact id

theorem pairwise_dropRepeats [Std.TransCmp order] (list : List α)
    (sorted : list.Pairwise fun left right => (order left right).isLE = true) :
    (dropRepeats order list).Pairwise fun left right => order left right = .lt := by
  fun_induction dropRepeats order list with
  | case1 first second rest same ih => exact ih sorted.tail
  | case2 first second rest apart ih =>
    refine List.Pairwise.cons ?_ (ih sorted.tail)
    -- sorted lists leave two answers open, and equal neighbours were dropped before
    have below : order first second = .lt := by
      have atMost := (List.pairwise_cons.1 sorted).1 second List.mem_cons_self
      cases result : order first second <;> simp_all
    intro element member
    cases subset_of_mem_dropRepeats order _ member with
    | head => exact below
    | tail _ member =>
      exact Std.TransCmp.lt_of_lt_of_isLE below
        ((List.pairwise_cons.1 sorted.tail).1 element member)
  | case3 list short =>
    match list, short with
    | [], _ => exact .nil
    | [_], _ => exact List.pairwise_singleton _ _
    | first :: second :: rest, short => exact absurd rfl (short first second rest)

/-- Where only equal elements of the list cannot be told apart, no element is lost. -/
theorem mem_dropRepeats {element : α} (list : List α)
    (told : ∀ left ∈ list, ∀ right ∈ list, order left right = .eq → left = right) :
    element ∈ dropRepeats order list ↔ element ∈ list := by
  refine ⟨subset_of_mem_dropRepeats order list, ?_⟩
  fun_induction dropRepeats order list with
  | case1 first second rest same ih =>
    obtain ⟨toldFirst, toldRest⟩ := List.forall_mem_cons.1 told
    -- the element that is dropped is the very one that stays behind it
    have isSecond : first = second :=
      toldFirst second (List.mem_cons_of_mem _ List.mem_cons_self) same
    have ihRest := ih fun left leftMember right rightMember =>
      toldRest left leftMember right (List.mem_cons_of_mem _ rightMember)
    intro member
    rcases List.mem_cons.1 member with rfl | member
    · exact ihRest (isSecond ▸ List.mem_cons_self)
    · exact ihRest member
  | case2 first second rest apart ih =>
    obtain ⟨toldFirst, toldRest⟩ := List.forall_mem_cons.1 told
    have ihRest := ih fun left leftMember right rightMember =>
      toldRest left leftMember right (List.mem_cons_of_mem _ rightMember)
    intro member
    rcases List.mem_cons.1 member with rfl | member
    · exact List.mem_cons_self
    · exact List.mem_cons_of_mem _ (ihRest member)
  | case3 => exact id

theorem mem_ofList_of_told {element : α} {list : List α}
    (told : ∀ left ∈ list, ∀ right ∈ list, order left right = .eq → left = right) :
    element ∈ ofList order list ↔ element ∈ list := by
  rw [ofList, mem_dropRepeats, mem_sort]
  intro left leftMember right rightMember
  exact told left ((mem_sort _ _).1 leftMember) right ((mem_sort _ _).1 rightMember)

theorem mem_ofList [Std.LawfulEqCmp order] {element : α} (list : List α) :
    element ∈ ofList order list ↔ element ∈ list :=
  mem_ofList_of_told order fun _ _ _ _ => Std.LawfulEqCmp.eq_of_compare

theorem pairwise_ofList [Std.TransCmp order] (list : List α) :
    (ofList order list).Pairwise fun left right => order left right = .lt := by
  refine pairwise_dropRepeats order _ (pairwise_sort _ ?_ ?_ list)
  · exact fun _ _ _ first second => Std.TransCmp.isLE_trans first second
  · intro left right
    have flipped := @Std.OrientedCmp.eq_swap _ order _ left right
    cases result : order right left <;> simp_all

/-! ## Adding elements -/

theorem mem_of_mem_insert {element added : α} (list : List α) :
    element ∈ insert order added list → element = added ∨ element ∈ list := by
  fun_induction insert order added list with
  | case1 => simp
  | case2 first rest below => simp
  | case3 first rest same => exact .inr
  | case4 first rest above ih =>
    intro member
    rcases List.mem_cons.1 member with rfl | member
    · exact .inr List.mem_cons_self
    · exact (ih member).imp_right (List.mem_cons_of_mem _)

theorem mem_of_mem_union {element : α} (base added : List α)
    (member : element ∈ union order base added) : element ∈ base ∨ element ∈ added := by
  unfold union at member
  induction added generalizing base with
  | nil => exact .inl member
  | cons first rest ih =>
    rcases ih _ member with member | member
    · rcases mem_of_mem_insert order base member with rfl | member
      · exact .inr List.mem_cons_self
      · exact .inl member
    · exact .inr (List.mem_cons_of_mem _ member)

theorem mem_insert_of_mem {element added : α} {list : List α} (member : element ∈ list) :
    element ∈ insert order added list := by
  fun_induction insert order added list with
  | case1 => cases member
  | case2 first rest below => exact List.mem_cons_of_mem _ member
  | case3 first rest same => exact member
  | case4 first rest above ih =>
    rcases List.mem_cons.1 member with rfl | member
    · exact List.mem_cons_self
    · exact List.mem_cons_of_mem _ (ih member)

/-- What is added, or what stands in its place already. -/
theorem exists_mem_insert [Std.ReflCmp order] (added : α) (list : List α) :
    ∃ element ∈ insert order added list, order added element = .eq := by
  fun_induction insert order added list with
  | case1 => exact ⟨added, List.mem_cons_self, Std.ReflCmp.compare_self⟩
  | case2 first rest below => exact ⟨added, List.mem_cons_self, Std.ReflCmp.compare_self⟩
  | case3 first rest same => exact ⟨first, List.mem_cons_self, same⟩
  | case4 first rest above ih =>
    obtain ⟨element, member, same⟩ := ih
    exact ⟨element, List.mem_cons_of_mem _ member, same⟩

theorem mem_union_of_mem_base {element : α} {base : List α} (added : List α)
    (member : element ∈ base) : element ∈ union order base added := by
  unfold union
  induction added generalizing base with
  | nil => exact member
  | cons first rest ih => exact ih (mem_insert_of_mem order member)

theorem exists_mem_union [Std.ReflCmp order] {element : α} (base : List α) {added : List α}
    (member : element ∈ added) : ∃ other ∈ union order base added, order element other = .eq := by
  unfold union
  induction added generalizing base with
  | nil => cases member
  | cons first rest ih =>
    rcases List.mem_cons.1 member with rfl | member
    · obtain ⟨other, inserted, same⟩ := exists_mem_insert order element base
      exact ⟨other, mem_union_of_mem_base order rest inserted, same⟩
    · exact ih _ member

theorem pairwise_insert [Std.TransCmp order] (added : α) (list : List α)
    (strict : list.Pairwise fun left right => order left right = .lt) :
    (insert order added list).Pairwise fun left right => order left right = .lt := by
  fun_induction insert order added list with
  | case1 => exact List.pairwise_singleton _ _
  | case2 first rest below =>
    refine List.Pairwise.cons ?_ strict
    intro element member
    rcases List.mem_cons.1 member with rfl | member
    · exact below
    · exact Std.TransCmp.lt_trans below ((List.pairwise_cons.1 strict).1 element member)
  | case3 first rest same => exact strict
  | case4 first rest above ih =>
    refine List.Pairwise.cons ?_ (ih strict.tail)
    intro element member
    rcases mem_of_mem_insert order rest member with rfl | member
    · exact Std.OrientedCmp.lt_of_gt above
    · exact (List.pairwise_cons.1 strict).1 element member

theorem pairwise_union [Std.TransCmp order] (base added : List α)
    (strict : base.Pairwise fun left right => order left right = .lt) :
    (union order base added).Pairwise fun left right => order left right = .lt := by
  unfold union
  induction added generalizing base with
  | nil => exact strict
  | cons first rest ih => exact ih _ (pairwise_insert order first base strict)

/-! ## One element for each place in the order -/

theorem eq_of_pairwise [Std.TransCmp order] {list : List α}
    (strict : list.Pairwise fun left right => order left right = .lt) {left right : α}
    (leftMember : left ∈ list) (rightMember : right ∈ list) (same : order left right = .eq) :
    left = right := by
  refine List.Pairwise.forall_of_forall_of_flip (R := fun left right =>
    order left right = .eq → left = right) (fun _ _ _ => rfl) ?_ ?_ leftMember rightMember same
  · refine strict.imp fun below same => ?_
    rw [below] at same
    contradiction
  · refine strict.imp fun {first second} below same => ?_
    rw [@Std.OrientedCmp.eq_swap _ order _ second first, below] at same
    contradiction

end CreatorMigration.Ordered
