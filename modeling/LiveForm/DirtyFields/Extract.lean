import LiveForm.DirtyFields.Basic
import LiveForm.Json.Tree

/-!
The part of a value that is marked, in the shape of the value. Items of a list stay in their
places, with `null` where nothing is marked; marks without a value are passed over.
-/

set_option autoImplicit false

namespace LiveForm

mutual

/-- What a tree of marks picks from a value. Marks below a scalar pick the scalar. -/
def DirtyTree.extract : DirtyTree → Json → Json
  | .leaf, v => v
  | .branch children, v =>
    match v with
    | .obj ms => .obj (DirtyTree.extractMembers children ms)
    | .arr xs => .arr (DirtyTree.extractItems children xs [])
    | v => v

def DirtyTree.extractMembers :
    List (String × DirtyTree) → List (String × Json) → List (String × Json)
  | [], _ => []
  | (k, t) :: rest, ms =>
    match Assoc.find? k ms with
    | some v => Assoc.insert k (DirtyTree.extract t v) (DirtyTree.extractMembers rest ms)
    | none => DirtyTree.extractMembers rest ms

/-- Fills `picked` in the order of the marks, so that of two spellings of an index the later
counts. -/
def DirtyTree.extractItems :
    List (String × DirtyTree) → List Json → List Json → List Json
  | [], _, picked => picked
  | (k, t) :: rest, xs, picked =>
    match (FieldPath.index? k).bind fun i => xs[i]?.map fun v => (i, v) with
    | some (i, v) =>
      DirtyTree.extractItems rest xs (Json.putItem (DirtyTree.extract t v) i picked)
    | none => DirtyTree.extractItems rest xs picked

end

/-- The marked part of the values. -/
def DirtyFields.extract (d : DirtyFields) (values : Json) : Json :=
  DirtyTree.extract (.branch d.children) values

end LiveForm
