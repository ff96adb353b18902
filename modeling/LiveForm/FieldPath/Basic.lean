import LiveForm.Text.Natural

/-!
Addresses of fields in a tree of values. A path is the list of its segments; what a segment means
is settled by the node it meets, a key in an object and an index in a list. So `a[0]` and `a.0` are
one path.
-/

set_option autoImplicit false

namespace LiveForm

structure FieldPath where
  segments : List String
  deriving DecidableEq, Repr, Inhabited

/-- Why a text or a list of segments is no path. A position counts the bytes of the trimmed text,
or the segments in front. -/
inductive PathError where
  | empty
  | emptySegment (path : String) (position : Nat)
  | unterminatedBracket (path : String)
  | emptyBracket (path : String)
  deriving DecidableEq, Repr

def PathError.message : PathError → String
  | .empty => "Field path is empty"
  | .emptySegment path position =>
    s!"Empty segment at position {position} in field path '{path}'"
  | .unterminatedBracket path => s!"Unterminated bracket in field path '{path}'"
  | .emptyBracket path => s!"Empty brackets in field path '{path}'"

namespace FieldPath

instance : LT FieldPath := ⟨fun a b => a.segments < b.segments⟩

instance : DecidableLT FieldPath := fun a b => inferInstanceAs (Decidable (a.segments < b.segments))

/-- The segments between points. -/
def display (p : FieldPath) : String := ".".intercalate p.segments

def length (p : FieldPath) : Nat := p.segments.length

def isEmpty (p : FieldPath) : Bool := p.segments.isEmpty

/-- The path of the enclosing container, `none` at the top. -/
def parent? (p : FieldPath) : Option FieldPath :=
  if p.segments.length ≤ 1 then none else some ⟨p.segments.dropLast⟩

def child (p : FieldPath) (segment : String) : FieldPath := ⟨p.segments ++ [segment]⟩

def startsWith (p q : FieldPath) : Bool := q.segments.isPrefixOf p.segments

/-- Takes segments as they are; there has to be one, and none may be empty. -/
def ofSegments (segments : List String) : Except PathError FieldPath :=
  if segments.isEmpty then .error .empty
  else match segments.findIdx? String.isEmpty with
    | some position => .error (.emptySegment (".".intercalate segments) position)
    | none => .ok ⟨segments⟩

/-- The place in a list that a segment names. -/
def index? (segment : String) : Option Nat := Text.natural? Text.wordBound segment

/-- The last index of all: a list that holds it would have more items than a word counts. -/
def lastIndex : Nat := Text.wordBound - 1

end FieldPath

end LiveForm
