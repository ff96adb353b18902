import LiveForm.DirtyFields.Diff
import LiveForm.DirtyFields.Extract

/-!
The values of a form beside the baseline, which is what was committed last, and the marks of the
edits since. Both values are objects. A write that asks for an impossible list gives no store.
-/

set_option autoImplicit false

namespace LiveForm

structure Store where
  values : Json
  baseline : Json
  dirty : DirtyFields
  deriving Inhabited, Repr

namespace Store

/-- Values other than an object count as no values. -/
def rooted : Json → Json
  | .obj ms => .obj ms
  | _ => .emptyObject

def new (defaults : Json) : Store := ⟨rooted defaults, rooted defaults, .empty⟩

def get? (s : Store) (p : FieldPath) : Option Json := s.values.get? p

def isDirty (s : Store) : Bool := !s.dirty.isEmpty

def dirtyValues (s : Store) : Json := s.dirty.extract s.values

/-- Holds if a write of `v` at `p` would change what is stored there. -/
def changes (s : Store) (p : FieldPath) (v : Json) : Bool :=
  match s.get? p with
  | some old => !old.same v
  | none => true

/-- Writes a value, and marks its path if asked to. -/
def set? (s : Store) (p : FieldPath) (v : Json) (dirty : Bool) : Option Store :=
  (s.values.set? p v).map fun values =>
    { s with values, dirty := if dirty then s.dirty.mark p else s.dirty }

/-- Takes values as the new baseline and drops all edits. -/
def reset (values : Json) : Store :=
  ⟨rooted values, rooted values, .diff (rooted values) (rooted values)⟩

/-- Writes one value after another. -/
def writeAll? (t : Json) : List (FieldPath × Json) → Option Json
  | [] => some t
  | (p, v) :: rest => (t.set? p v).bind fun t => writeAll? t rest

/-- Takes a new baseline and keeps edits on top of it. -/
def commit? (baseline : Json) (edits : List (FieldPath × Json)) : Option Store :=
  (writeAll? (rooted baseline) edits).map fun merged =>
    ⟨merged, rooted baseline, .diff merged (rooted baseline)⟩

end Store

end LiveForm
