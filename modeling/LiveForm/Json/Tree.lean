import LiveForm.FieldPath.Basic
import LiveForm.Json.Basic

/-!
Reading and writing at a path. A write makes the containers it misses on its way: a list where the
next segment is an index, else an object. A list that meets a segment other than an index gives
way to an object, and so does a scalar.
-/

set_option autoImplicit false

namespace LiveForm.Json

/-- The node one segment below. -/
def child? (t : Json) (segment : String) : Option Json :=
  match t with
  | .obj ms => Assoc.find? segment ms
  | .arr xs => (FieldPath.index? segment).bind fun i => xs[i]?
  | _ => none

def follow? (t : Json) : List String → Option Json
  | [] => some t
  | s :: rest => (t.child? s).bind fun c => c.follow? rest

def get? (t : Json) (p : FieldPath) : Option Json := t.follow? p.segments

def has (t : Json) (p : FieldPath) : Bool := (t.get? p).isSome

/-- Puts an item at an index, with `null` in the places up to there. -/
def putItem (v : Json) : Nat → List Json → List Json
  | 0, [] => [v]
  | 0, _ :: xs => v :: xs
  | n + 1, [] => .null :: putItem v n []
  | n + 1, x :: xs => x :: putItem v n xs

/-- Puts a child under a node, `none` at the last index of a list. -/
def putChild? (t : Json) (segment : String) (v : Json) : Option Json :=
  match t, FieldPath.index? segment with
  | .arr xs, some i => if i = FieldPath.lastIndex then none else some (.arr (putItem v i xs))
  | .obj ms, _ => some (.obj (Assoc.insert segment v ms))
  | _, _ => some (.obj [(segment, v)])

/-- The node a write goes on into: what is there, or a new container fit for the next segment. -/
def containerFor (next : String) : Option Json → Json
  | some (.obj ms) => .obj ms
  | some (.arr xs) => .arr xs
  | _ => if (FieldPath.index? next).isSome then .arr [] else emptyObject

def write? (t : Json) : List String → Json → Option Json
  | [], _ => some t
  | [s], v => t.putChild? s v
  | s :: next :: rest, v =>
    (write? (containerFor next (t.child? s)) (next :: rest) v).bind fun c => t.putChild? s c

/-- Writes a value. There is no result if a list on the way would have to hold the last index. -/
def set? (t : Json) (p : FieldPath) (v : Json) : Option Json := t.write? p.segments v

end LiveForm.Json
