import LiveForm.Assoc
import LiveForm.FieldPath.Basic

/-!
Which fields have been edited: a tree in the shape of the values, whose leaves are the marks. A
mark covers everything below it.
-/

set_option autoImplicit false

namespace LiveForm

inductive DirtyTree where
  | leaf
  | branch (children : List (String × DirtyTree))
  deriving Inhabited, Repr, BEq

/-- The marks of a form, by the first segment of their paths. -/
structure DirtyFields where
  children : List (String × DirtyTree)
  deriving Inhabited, Repr, BEq

namespace DirtyTree

/-- Marks below a node that has not been marked itself. -/
def mark : List (String × DirtyTree) → List String → List (String × DirtyTree)
  | m, [] => m
  | m, [s] => Assoc.insert s .leaf m
  | m, s :: next :: rest =>
    match Assoc.find? s m with
    | some .leaf => m
    | some (.branch below) => Assoc.insert s (.branch (mark below (next :: rest))) m
    | none => Assoc.insert s (.branch (mark [] (next :: rest))) m

def isMarked : List (String × DirtyTree) → List String → Bool
  | _, [] => false
  | m, s :: rest =>
    match Assoc.find? s m with
    | none => false
    | some .leaf => true
    | some (.branch below) => isMarked below rest

def touches : List (String × DirtyTree) → List String → Bool
  | _, [] => true
  | m, s :: rest =>
    match Assoc.find? s m with
    | none => false
    | some .leaf => true
    | some (.branch below) => touches below rest

mutual

/-- The way to each leaf, in the order of the tree. -/
def leafPaths : DirtyTree → List (List String)
  | .leaf => [[]]
  | .branch children => childPaths children

def childPaths : List (String × DirtyTree) → List (List String)
  | [] => []
  | (s, t) :: rest => (leafPaths t).map (s :: ·) ++ childPaths rest

end

end DirtyTree

namespace DirtyFields

def empty : DirtyFields := ⟨[]⟩

def isEmpty (d : DirtyFields) : Bool := d.children.isEmpty

/-- Marks a path, unless one above it is marked. Marks below it are covered by the new one. -/
def mark (d : DirtyFields) (p : FieldPath) : DirtyFields := ⟨DirtyTree.mark d.children p.segments⟩

/-- Holds of marked paths and of all paths below them. -/
def isMarked (d : DirtyFields) (p : FieldPath) : Bool := DirtyTree.isMarked d.children p.segments

/-- Holds of marked paths and of all paths below or above them. -/
def touches (d : DirtyFields) (p : FieldPath) : Bool := DirtyTree.touches d.children p.segments

/-- The marked paths in the order of the tree. A path with an empty segment has no name and is
left out. -/
def paths (d : DirtyFields) : List FieldPath :=
  (DirtyTree.childPaths d.children).filterMap fun segments =>
    (FieldPath.ofSegments segments).toOption

end DirtyFields

end LiveForm
