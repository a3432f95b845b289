import CreatorMigration.Path.Basic
import CreatorMigration.Proofs.Text.Parts

/-! # Normal forms of paths

`Path.normalize` reads a path, resolves its components on a stack and writes the result, which is
read back as it was written. On such a result it has nothing left to do.
-/

namespace CreatorMigration

/-! ## Comparing paths -/

theorem Path.beq_iff {left right : Path} :
    (left == right) = true ↔ left.components = right.components := by
  change (left.components == right.components) = true ↔ _
  exact beq_iff_eq

theorem Path.beq_comm (left right : Path) : (left == right) = (right == left) := by
  rw [Bool.eq_iff_iff, Path.beq_iff, Path.beq_iff, eq_comm]

theorem Path.beq_congr {left right other : Path} (same : left.components = right.components) :
    (left == other) = (right == other) := by
  change (left.components == other.components) = (right.components == other.components)
  rw [same]

theorem Path.order_eq_of_beq {left right : Path} (same : (left == right) = true) :
    left.order right = .eq := by
  rw [order, Path.beq_iff.1 same]
  exact Std.ReflCmp.compare_self

/-! ## Reading what was written -/

/-- The components that can stand behind the first one of a path. -/
def Component.IsSegment : Component → Prop
  | .parent => True
  | .name text => text ≠ "" ∧ text ≠ "." ∧ text ≠ ".." ∧ '/' ∉ text.toList
  | _ => False

namespace Component

theorem ofSegment?_text {component : Component} (segment : component.IsSegment) :
    ofSegment? component.text = some component := by
  cases component with
  | root | current => exact segment.elim
  | parent => rfl
  | name text =>
    obtain ⟨nonempty, notCurrent, notParent, _⟩ := segment
    simp [ofSegment?, Component.text, nonempty, notCurrent, notParent]

theorem filterMap_ofSegment?_text {parts : List Component}
    (segments : ∀ part ∈ parts, part.IsSegment) :
    (parts.map text).filterMap ofSegment? = parts := by
  induction parts with
  | nil => rfl
  | cons first rest inductionHypothesis =>
    rw [List.map_cons, List.filterMap_cons, ofSegment?_text (segments first List.mem_cons_self)]
    rw [inductionHypothesis fun part member => segments part (List.mem_cons_of_mem _ member)]

theorem text_ne_empty {component : Component} (segment : component.IsSegment) :
    component.text ≠ "" ∧ component.text ≠ "." := by
  cases component with
  | root | current => exact segment.elim
  | parent => exact ⟨by decide, by decide⟩
  | name text => exact ⟨segment.1, segment.2.1⟩

theorem slash_notMem_text {component : Component} (segment : component.IsSegment) :
    '/' ∉ component.text.toList := by
  cases component with
  | root | current => exact segment.elim
  | parent => decide
  | name text => exact segment.2.2.2

theorem isSegment_of_ofSegment? {segment : String} {component : Component}
    (slashFree : '/' ∉ segment.toList) (read : ofSegment? segment = some component) :
    component.IsSegment := by
  unfold ofSegment? at read
  split at read
  · cases read
  · next blank =>
    split at read
    · cases read
      trivial
    · next notParent =>
      cases read
      exact ⟨fun empty => blank (.inl empty), fun dot => blank (.inr dot), notParent, slashFree⟩

/-- A name stays one when anything without a slash is put behind it. -/
theorem IsSegment.append {text tail : String} (segment : (name text).IsSegment)
    (slashFree : '/' ∉ tail.toList) : (name (text ++ tail)).IsSegment := by
  obtain ⟨nonempty, notCurrent, notParent, textSlashFree⟩ := segment
  -- what begins one of the texts that are no names is such a text itself
  have named {whole : String} (short : whole = "" ∨ whole = "." ∨ whole = "..") :
      text ++ tail ≠ whole := by
    intro same
    have front : text.toList <+: whole.toList := ⟨tail.toList, by rw [← same, String.toList_append]⟩
    have begins : text.toList = [] ∨ text.toList = ['.'] ∨ text.toList = ['.', '.'] := by
      rcases short with rfl | rfl | rfl <;> grind [List.prefix_cons_iff]
    rcases begins with begins | begins | begins
    · exact nonempty (String.toList_inj.1 begins)
    · exact notCurrent (String.toList_inj.1 begins)
    · exact notParent (String.toList_inj.1 begins)
  refine ⟨named (by simp), named (by simp), named (by simp), ?_⟩
  rw [String.toList_append, List.mem_append, not_or]
  exact ⟨textSlashFree, slashFree⟩

end Component

namespace Path

/-- A path is read back as it was written when only its first component can be the root. -/
theorem components_ofComponents_segments {parts : List Component}
    (segments : ∀ part ∈ parts, part.IsSegment) : (ofComponents parts).components = parts := by
  have readBack := Component.filterMap_ofSegment?_text segments
  cases parts with
  | nil => rfl
  | cons first rest =>
    have written : ofComponents (first :: rest) =
        ⟨Text.join "/" ((first :: rest).map Component.text)⟩ := by
      cases first with
      | root => exact (segments _ List.mem_cons_self).elim
      | current | parent | name => rfl
    have slashFree : ∀ text ∈ (first :: rest).map Component.text, '/' ∉ text.toList := by
      intro text member
      obtain ⟨part, partMember, rfl⟩ := List.mem_map.1 member
      exact Component.slash_notMem_text (segments part partMember)
    -- the first segment is read by rules of its own, which agree on names and parents
    have firstSegment := segments first List.mem_cons_self
    obtain ⟨nonempty, notCurrent⟩ := Component.text_ne_empty firstSegment
    rw [components, written, Text.splitOn_join (by simp) slashFree]
    rw [List.map_cons, List.filterMap_cons, Component.ofSegment?_text firstSegment] at readBack
    simp only [List.map_cons, nonempty, notCurrent, if_false,
      Component.ofSegment?_text firstSegment, Option.toList_some, List.cons_append,
      List.nil_append]
    exact readBack

theorem components_ofComponents_root {parts : List Component}
    (segments : ∀ part ∈ parts, part.IsSegment) :
    (ofComponents (.root :: parts)).components = .root :: parts := by
  have readBack := Component.filterMap_ofSegment?_text segments
  cases parts with
  | nil => decide
  | cons first rest =>
    -- the slash in front makes an empty first segment, which is what the root is read from
    have written : "/" ++ Text.join "/" ((first :: rest).map Component.text) =
        Text.join "/" ("" :: (first :: rest).map Component.text) := by
      simp [Text.join, String.intercalate_cons_of_ne_nil]
    have slashFree : ∀ text ∈ "" :: (first :: rest).map Component.text, '/' ∉ text.toList := by
      intro text member
      rcases List.mem_cons.1 member with rfl | member
      · decide
      · obtain ⟨part, partMember, rfl⟩ := List.mem_map.1 member
        exact Component.slash_notMem_text (segments part partMember)
    rw [components, ofComponents, written, Text.splitOn_join (by simp) slashFree]
    simpa using readBack

/-- A path that starts where one stands is read back as it was written. -/
theorem components_ofComponents_current {parts : List Component}
    (segments : ∀ part ∈ parts, part.IsSegment) :
    (ofComponents (.current :: parts)).components = .current :: parts := by
  have slashFree : ∀ text ∈ (Component.current :: parts).map Component.text,
      '/' ∉ text.toList := by
    intro text member
    rcases List.mem_cons.1 member with rfl | member
    · decide
    · obtain ⟨part, partMember, rfl⟩ := List.mem_map.1 member
      exact Component.slash_notMem_text (segments part partMember)
  rw [components, ofComponents, Text.splitOn_join (by simp) slashFree]
  · simp [Component.text, Component.filterMap_ofSegment?_text segments]
  · simp

/-! ## What a path can be read as -/

/-- Only the first component of a path can be the root or the directory one stands in. -/
theorem components_shape (path : Path) :
    ∃ lead segments, path.components = lead ++ segments ∧
      (lead = [] ∨ lead = [.root] ∨ lead = [.current]) ∧
      ∀ component ∈ segments, component.IsSegment := by
  unfold components
  cases split : Text.splitOn '/' path.text with
  | nil => exact ⟨[], [], rfl, .inl rfl, by simp⟩
  | cons first rest =>
    have slashFree : ∀ text ∈ first :: rest, '/' ∉ text.toList := fun text member =>
      Text.slash_notMem_of_mem_splitOn (split ▸ member)
    have behind : ∀ component ∈ rest.filterMap Component.ofSegment?, component.IsSegment := by
      intro component member
      obtain ⟨text, textMember, read⟩ := List.mem_filterMap.1 member
      exact Component.isSegment_of_ofSegment? (slashFree text (List.mem_cons_of_mem _ textMember))
        read
    dsimp only
    split
    · split
      · exact ⟨[], _, rfl, .inl rfl, behind⟩
      · exact ⟨[.root], _, rfl, .inr (.inl rfl), behind⟩
    · split
      · exact ⟨[.current], _, rfl, .inr (.inr rfl), behind⟩
      · refine ⟨[], _, rfl, .inl rfl, ?_⟩
        intro component member
        rcases List.mem_append.1 member with member | member
        · exact Component.isSegment_of_ofSegment? (slashFree first List.mem_cons_self)
            (Option.mem_toList.1 member)
        · exact behind component member

/-- A file name is a segment, as only the first component of a path can be something else. -/
theorem isSegment_of_fileName? {path : Path} {file : String}
    (named : path.fileName? = some file) : (Component.name file).IsSegment := by
  have member : Component.name file ∈ path.components := by
    unfold fileName? at named
    split at named
    · next last =>
      cases named
      exact List.mem_of_getLast? last
    · cases named
  obtain ⟨lead, segments, shape, leads, allSegments⟩ := path.components_shape
  rw [shape, List.mem_append] at member
  rcases member with inLead | inSegments
  · rcases leads with rfl | rfl | rfl <;> simp at inLead
  · exact allSegments _ inSegments

/-- A directory that is cut off a path is read as the components in front of the last one. -/
theorem components_dropLast (path : Path) :
    (ofComponents path.components.dropLast).components = path.components.dropLast := by
  obtain ⟨lead, segments, shape, leads, allSegments⟩ := path.components_shape
  have dropped : ∀ part ∈ segments.dropLast, part.IsSegment := fun part member =>
    allSegments part (List.dropLast_subset _ member)
  rw [shape]
  by_cases none : segments = []
  · rcases leads with rfl | rfl | rfl <;> rw [none] <;> rfl
  · rw [List.dropLast_append_of_ne_nil none]
    rcases leads with rfl | rfl | rfl
    · exact components_ofComponents_segments dropped
    · exact components_ofComponents_root dropped
    · exact components_ofComponents_current dropped

theorem components_parent? {path directory : Path} (parent : path.parent? = some directory) :
    directory.components = path.components.dropLast ∧
      ofComponents directory.components = directory := by
  have written : directory = ofComponents path.components.dropLast := by
    unfold parent? at parent
    split at parent
    · cases parent
    · cases parent
    · exact (Option.some.inj parent).symm
  rw [written, components_dropLast]
  exact ⟨rfl, rfl⟩

theorem parent?_of_concat {path directory : Path} {file : String}
    (parts : path.components = directory.components ++ [.name file])
    (written : ofComponents directory.components = directory) :
    path.parent? = some directory ∧ path.fileName? = some file := by
  have last : path.components.getLast? = some (.name file) := by
    rw [parts, List.getLast?_concat]
  rw [parent?, fileName?, last]
  dsimp only
  rw [parts, List.dropLast_concat, written]
  exact ⟨rfl, rfl⟩

/-! ## The stack of a normal form -/

/-- What stands at the bottom of a stack, below all names. -/
def bottoms : List (List Component) := [[], [.parent], [.root], [.parent, .root]]

/-- Stacks that pushing keeps: names on top of one of the bottoms. -/
def NormalStack (stack : List Component) : Prop :=
  ∃ names bottom, stack = names ++ bottom ∧ bottom ∈ bottoms ∧
    ∀ component ∈ names, component.IsSegment ∧ component ≠ .parent

theorem push_name (stack : List Component) (text : String) :
    push stack (.name text) = .name text :: stack := by
  rcases stack with _ | ⟨_ | _ | _ | _, _ | _⟩ <;> rfl

theorem NormalStack.push_segment {stack : List Component} (normal : NormalStack stack)
    {component : Component} (segment : component.IsSegment) :
    NormalStack (push stack component) := by
  obtain ⟨names, bottom, rfl, bottomMember, namesNormal⟩ := normal
  cases component with
  | root | current => exact segment.elim
  | name text =>
    rw [push_name]
    refine ⟨.name text :: names, bottom, rfl, bottomMember, ?_⟩
    intro other member
    rcases List.mem_cons.1 member with rfl | member
    · exact ⟨segment, by simp⟩
    · exact namesNormal other member
  | parent =>
    cases names with
    | cons first below =>
      have pushed : push (first :: below ++ bottom) .parent = below ++ bottom := by
        obtain ⟨firstSegment, notParent⟩ := namesNormal first List.mem_cons_self
        cases first with
        | root | current => exact firstSegment.elim
        | parent => exact absurd rfl notParent
        | name text => rfl
      rw [pushed]
      exact ⟨below, bottom, rfl, bottomMember, fun other member =>
        namesNormal other (List.mem_cons_of_mem _ member)⟩
    | nil =>
      -- no name is left to go up from, so it is the bottom that changes
      refine ⟨[], push bottom .parent, rfl, ?_, by simp⟩
      simp only [bottoms, List.mem_cons, List.not_mem_nil, or_false] at bottomMember
      rcases bottomMember with rfl | rfl | rfl | rfl <;> decide

theorem NormalStack.foldl_push {stack segments : List Component} (normal : NormalStack stack)
    (allSegments : ∀ component ∈ segments, component.IsSegment) :
    NormalStack (segments.foldl push stack) := by
  induction segments generalizing stack with
  | nil => exact normal
  | cons first rest inductionHypothesis =>
    exact inductionHypothesis (normal.push_segment (allSegments first List.mem_cons_self))
      fun component member => allSegments component (List.mem_cons_of_mem _ member)

theorem normalStack_foldl_components (path : Path) :
    NormalStack (path.components.foldl push []) := by
  obtain ⟨lead, segments, shape, leads, allSegments⟩ := components_shape path
  rw [shape, List.foldl_append]
  refine NormalStack.foldl_push ?_ allSegments
  rcases leads with rfl | rfl | rfl
  · exact ⟨[], [], rfl, by decide, by simp⟩
  · exact ⟨[], [.root], rfl, by decide, by simp⟩
  · exact ⟨[], [], rfl, by decide, by simp⟩

/-- A normal stack is what pushing its own components leaves. -/
theorem NormalStack.foldl_push_reverse {stack : List Component} (normal : NormalStack stack) :
    stack.reverse.foldl push [] = stack := by
  obtain ⟨names, bottom, rfl, bottomMember, namesNormal⟩ := normal
  have bottomKept : bottom.reverse.foldl push [] = bottom := by
    simp only [bottoms, List.mem_cons, List.not_mem_nil, or_false] at bottomMember
    rcases bottomMember with rfl | rfl | rfl | rfl <;> rfl
  rw [List.reverse_append, List.foldl_append, bottomKept]
  -- only names are left to push, and none of them takes another one away
  induction names with
  | nil => rfl
  | cons first rest inductionHypothesis =>
    rw [List.reverse_cons, List.foldl_append, inductionHypothesis fun component member =>
      namesNormal component (List.mem_cons_of_mem _ member)]
    obtain ⟨segment, notParent⟩ := namesNormal first List.mem_cons_self
    cases first with
    | root | current => exact segment.elim
    | parent => exact absurd rfl notParent
    | name text => exact push_name _ text

theorem NormalStack.components_ofComponents {stack : List Component} (normal : NormalStack stack) :
    (ofComponents stack.reverse).components = stack.reverse := by
  obtain ⟨names, bottom, rfl, bottomMember, namesNormal⟩ := normal
  have segments : ∀ component ∈ names.reverse, component.IsSegment := fun component member =>
    (namesNormal component (List.mem_reverse.1 member)).1
  rw [List.reverse_append]
  simp only [bottoms, List.mem_cons, List.not_mem_nil, or_false] at bottomMember
  rcases bottomMember with rfl | rfl | rfl | rfl
  · exact components_ofComponents_segments segments
  · refine components_ofComponents_segments fun component member => ?_
    rcases List.mem_append.1 member with member | member
    · simp only [List.reverse_singleton, List.mem_singleton] at member
      exact member ▸ trivial
    · exact segments component member
  · exact components_ofComponents_root segments
  · refine components_ofComponents_root fun component member => ?_
    rcases List.mem_append.1 member with member | member
    · simp only [List.mem_singleton] at member
      exact member ▸ trivial
    · exact segments component member

theorem NormalStack.tail {stack : List Component} (normal : NormalStack stack) :
    NormalStack stack.tail := by
  obtain ⟨names, bottom, rfl, bottomMember, namesNormal⟩ := normal
  cases names with
  | nil =>
    refine ⟨[], bottom.tail, rfl, ?_, by simp⟩
    simp only [bottoms, List.mem_cons, List.not_mem_nil, or_false] at bottomMember
    rcases bottomMember with rfl | rfl | rfl | rfl <;> decide
  | cons first below =>
    exact ⟨below, bottom, rfl, bottomMember, fun component member =>
      namesNormal component (List.mem_cons_of_mem _ member)⟩

/-! ## Normal forms -/

theorem components_normalize (path : Path) :
    path.normalize.components = normalComponents path.components :=
  (normalStack_foldl_components path).components_ofComponents

/-- A normal form is its own normal form. -/
theorem normalize_normalize (path : Path) : path.normalize.normalize = path.normalize := by
  have kept := (normalStack_foldl_components path).foldl_push_reverse
  rw [normalize, components_normalize, normalComponents, normalComponents, kept]
  rfl

theorem ofComponents_of_normalize {directory : Path} (normal : directory.normalize = directory) :
    ofComponents directory.components = directory := by
  have parts := components_normalize directory
  rw [normal] at parts
  rw [parts]
  exact normal

section

variable {path : Path} (normal : path.normalize.components = path.components)

include normal

theorem foldl_push_of_normal : path.components.foldl push [] = path.components.reverse := by
  rw [components_normalize, normalComponents, List.reverse_eq_iff] at normal
  exact normal

theorem normalStack_of_normal : NormalStack path.components.reverse := by
  rw [← foldl_push_of_normal normal]
  exact normalStack_foldl_components path

/-- The directory of a normal form is written as its own normal form. -/
theorem normalize_parent? {directory : Path} (parent : path.parent? = some directory) :
    directory.normalize = directory := by
  obtain ⟨parts, written⟩ := components_parent? parent
  have stack : NormalStack directory.components.reverse := by
    rw [parts, ← List.tail_reverse]
    exact (normalStack_of_normal normal).tail
  have kept := stack.foldl_push_reverse
  rw [List.reverse_reverse] at kept
  rw [normalize, normalComponents, kept, List.reverse_reverse, written]

/-- A normal form without a file name has nothing on top of its bottom. -/
theorem fileName?_eq_none_iff :
    path.fileName? = none ↔ path.components.reverse ∈ bottoms := by
  obtain ⟨names, bottom, stack, bottomMember, plain⟩ := normalStack_of_normal normal
  rw [fileName?, List.getLast?_eq_head?_reverse, stack]
  cases names with
  | nil =>
    refine iff_of_true ?_ bottomMember
    simp only [bottoms, List.mem_cons, List.not_mem_nil, or_false] at bottomMember
    rcases bottomMember with rfl | rfl | rfl | rfl <;> rfl
  | cons first rest =>
    obtain ⟨segment, notParent⟩ := plain first List.mem_cons_self
    cases first with
    | root | current => exact segment.elim
    | parent => exact absurd rfl notParent
    | name text => exact iff_of_false (by simp) (by simp [bottoms])

end

end Path

end CreatorMigration
