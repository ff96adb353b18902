import LiveForm.DirtyFields.Basic
import LiveForm.Json.Basic

/-!
The difference of two values as marks, at the finest paths where they differ. Objects are compared
key by key and lists place by place; a key or a place that only one side has is a difference.
-/

set_option autoImplicit false

namespace LiveForm

namespace DirtyTree

/-- A node over differences, `none` without one. -/
def branch? (children : List (String × DirtyTree)) : Option DirtyTree :=
  if children.isEmpty then none else some (.branch children)

/-- Adds the difference found under a segment. -/
def addDifference (segment : String) (found : Option DirtyTree)
    (m : List (String × DirtyTree)) : List (String × DirtyTree) :=
  match found with
  | some t => Assoc.insert segment t m
  | none => m

/-- Marks every key of the second object that the first one lacks. -/
def addMissing (current : List (String × Json)) :
    List (String × Json) → List (String × DirtyTree) → List (String × DirtyTree)
  | [], m => m
  | (k, _) :: rest, m =>
    if Assoc.contains k current then addMissing current rest m
    else Assoc.insert k .leaf (addMissing current rest m)

/-- Marks `count` places from `i` on. -/
def addPlaces (i : Nat) : Nat → List (String × DirtyTree)
  | 0 => []
  | count + 1 => Assoc.insert (toString i) .leaf (addPlaces (i + 1) count)

mutual

/-- The difference of two values, `none` if they are the same. -/
def diff? : Json → Json → Option DirtyTree
  | .obj current, .obj baseline =>
    branch? (addMissing current baseline (diffMembers current baseline))
  | .arr current, .arr baseline => branch? (diffItems 0 current baseline)
  | a, b => if a.same b then none else some .leaf

def diffMembers : List (String × Json) → List (String × Json) → List (String × DirtyTree)
  | [], _ => []
  | (k, v) :: rest, baseline =>
    match Assoc.find? k baseline with
    | some old => addDifference k (diff? v old) (diffMembers rest baseline)
    | none => Assoc.insert k .leaf (diffMembers rest baseline)

/-- The differences from place `i` on. -/
def diffItems (i : Nat) : List Json → List Json → List (String × DirtyTree)
  | [], ys => addPlaces i ys.length
  | x :: xs, ys =>
    match ys with
    | [] => Assoc.insert (toString i) .leaf (diffItems (i + 1) xs [])
    | y :: ys => addDifference (toString i) (diff? x y) (diffItems (i + 1) xs ys)

end

end DirtyTree

/-- The marks that tell `current` from `baseline`. If only one of them has a tree shape at the
top, every key of `current` is marked. -/
def DirtyFields.diff (current baseline : Json) : DirtyFields :=
  match DirtyTree.diff? current baseline with
  | some (.branch children) => ⟨children⟩
  | some .leaf =>
    match current with
    | .obj ms => ⟨Assoc.ofPairs (ms.map fun e => (e.1, DirtyTree.leaf))⟩
    | _ => .empty
  | none => .empty

end LiveForm
