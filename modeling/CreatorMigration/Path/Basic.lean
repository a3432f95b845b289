import CreatorMigration.Ordered
import CreatorMigration.Text.Basic

/-! # Paths

A `Path` is kept as it was written and read as a list of components: empty segments vanish, and so
do `.` segments except a leading one, which says that the path is relative. Two paths are the same
when their components are the same, whatever their spelling.

* `Path.components` reads a path, `Path.ofComponents` writes one.
* `Path.normalize` resolves `.` and `..` without looking at any file.
* `Path.order` is the order by components, where a directory stands right before what it contains.
-/

namespace CreatorMigration

/-- A part of a path between separators. -/
inductive Component where
  | root
  | current
  | parent
  | name (text : String)
deriving DecidableEq, Inhabited

namespace Component

def text : Component → String
  | root => "/"
  | current => "."
  | parent => ".."
  | name text => text

/-- The reading of a segment behind the first one; the empty segment and `.` say nothing. -/
def ofSegment? (segment : String) : Option Component :=
  if segment = "" ∨ segment = "." then none
  else if segment = ".." then some parent
  else some (name segment)

/-- Where the kinds of components stand in the order. -/
def rank : Component → Nat
  | root => 0
  | current => 1
  | parent => 2
  | name _ => 3

/-- By kind, and names by their code points. -/
def order : Component → Component → Ordering := compareLex (compareOn rank) (compareOn text)

end Component

structure Path where
  text : String
deriving Inhabited

namespace Path

/-! ## Reading and writing -/

def components (path : Path) : List Component :=
  match Text.splitOn '/' path.text with
  | [] => []
  | first :: rest =>
      let lead :=
        if first = "" then if rest.isEmpty then [] else [Component.root]
        else if first = "." then [Component.current]
        else (Component.ofSegment? first).toList
      lead ++ rest.filterMap Component.ofSegment?

def ofComponents : List Component → Path
  | Component.root :: rest => ⟨"/" ++ Text.join "/" (rest.map Component.text)⟩
  | parts => ⟨Text.join "/" (parts.map Component.text)⟩

instance : BEq Path := ⟨fun left right => left.components == right.components⟩

/-! ## Order -/

def order (left right : Path) : Ordering :=
  List.compareLex Component.order left.components right.components

instance : Std.TransCmp Component.order := inferInstanceAs (Std.TransCmp (compareLex _ _))

instance : Std.TransCmp order where
  eq_swap := @fun left right =>
    @Std.OrientedCmp.eq_swap _ (List.compareLex Component.order) _ left.components right.components
  isLE_trans := @fun left middle right =>
    @Std.TransCmp.isLE_trans _ (List.compareLex Component.order) _
      left.components middle.components right.components

/-- The paths in order, each once. -/
def sortedSet (paths : List Path) : List Path := Ordered.ofList order paths

/-! ## Parts -/

def isAbsolute (path : Path) : Bool := path.components.head? == some Component.root

/-- The path without its last component; the root and the empty path have none. -/
def parent? (path : Path) : Option Path :=
  match path.components.getLast? with
  | none => none
  | some Component.root => none
  | some _ => some (ofComponents path.components.dropLast)

def fileName? (path : Path) : Option String :=
  match path.components.getLast? with
  | some (Component.name text) => some text
  | _ => none

/-- A name before and behind its last dot; a name whose only dot comes first has no extension. -/
def splitName (name : String) : String × Option String :=
  let extension := Text.afterLast '.' name
  let stemLength := name.length - extension.length - 1
  if extension.length = name.length ∨ stemLength = 0 then (name, none)
  else (String.ofList (name.toList.take stemLength), some extension)

def stem? (path : Path) : Option String := path.fileName?.map fun name => (splitName name).1

def extension? (path : Path) : Option String := path.fileName?.bind fun name => (splitName name).2

/-- The path with the extension of its last component cut off, read anew. -/
def withoutExtension (path : Path) : Path :=
  match path.stem? with
  | some stem => ofComponents (path.components.dropLast ++ [Component.name stem])
  | none => path

/-- `path` seen from `base`; an absolute path stands for itself. -/
def under (base path : Path) : Path :=
  if path.isAbsolute then path
  else if base.text = "" ∨ Text.hasEnd "/" base.text then ⟨base.text ++ path.text⟩
  else ⟨base.text ++ "/" ++ path.text⟩

/-- Whether `directory` is the beginning of `path`, component by component. -/
def isUnder (path directory : Path) : Bool :=
  directory.components.isPrefixOf path.components

/-! ## Normal form -/

/-- One component on top of the components read so far, the last of them first. -/
def push : List Component → Component → List Component
  | stack, Component.current => stack
  | [], Component.parent => [Component.parent]
  | [Component.root], Component.parent => [Component.parent, Component.root]
  | _ :: below, Component.parent => below
  | stack, other => other :: stack

def normalComponents (parts : List Component) : List Component :=
  (parts.foldl push []).reverse

def normalize (path : Path) : Path := ofComponents (normalComponents path.components)

end Path

end CreatorMigration
