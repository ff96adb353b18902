import LiveForm.Json.Basic
import LiveForm.Rule

/-!
Values in JSON form. A record is an object with a member for each field; members it does not know
are passed over. It can also be read from a list of its fields in order.
-/

set_option autoImplicit false

namespace LiveForm

/-- What a value is read from: a tree at hand, or the tree that a text was parsed to. In the tree of a
text, members stand as they were written, and keys may be repeated. How the text spells its numbers,
and how deep it may be nested, is settled when it is parsed. -/
inductive Medium where
  | tree
  | text
  deriving DecidableEq, Repr

/-- Types with a JSON form. `absent?` is what a missing member stands for. -/
class Wire (α : Type) where
  encode : α → Json
  decode? : Medium → Json → Option α
  absent? : Option α := none

namespace Wire

/-- A natural number below a bound. -/
def natural? (bound : Nat) : Json → Option Nat
  | .int n => if 0 ≤ n ∧ n < bound then some n.toNat else none
  | _ => none

instance : Wire Bool where
  encode := .bool
  decode? _
    | .bool b => some b
    | _ => none

instance : Wire String where
  encode := .str
  decode? _
    | .str s => some s
    | _ => none

instance : Wire UInt32 where
  encode n := .int n.toNat
  decode? _ j := (natural? 0x100000000 j).map UInt32.ofNat

instance : Wire UInt64 where
  encode n := .int n.toNat
  decode? _ j := (natural? Text.wordBound j).map UInt64.ofNat

/-- Any value. From a text, of members with one key the last counts. -/
instance : Wire Json where
  encode v := v
  decode? m v :=
    match m with
    | .tree => some v
    | .text => some v.normalize

instance {α : Type} [Wire α] : Wire (Option α) where
  encode
    | some a => encode a
    | none => .null
  decode? m
    | .null => some none
    | j => (decode? m j).map some
  absent? := some none

instance {α : Type} [Wire α] : Wire (List α) where
  encode xs := .arr (xs.map encode)
  decode? m
    | .arr xs => xs.mapM (decode? m)
    | _ => none

instance : Wire FieldErrors where
  encode errors := .obj (errors.map fun e => (e.1, .str e.2))
  decode? m
    | .obj ms =>
      (ms.mapM fun e => (decode? m e.2).map fun message : String => (e.1, message)).map Assoc.ofPairs
    | _ => none

/-- The fields of a record are written in their own order, not in that of their names. -/
def record (members : List (String × Json)) : Json := .obj members

/-- What a record has for one of its fields. A field may be absent from an object, and left off the
end of a list. -/
inductive Slot where
  | given (j : Json)
  | absent
  | leftOff

namespace Slot

variable {α : Type} [Wire α]

def read (m : Medium) : Slot → Option α
  | .given j => decode? m j
  | .absent => absent?
  | .leftOff => none

/-- Reads a field that has a default. -/
def readOr (m : Medium) (default : α) : Slot → Option α
  | .given j => decode? m j
  | _ => some default

end Slot

/-- Holds if none of the names is the key of two members. -/
def noneRepeated (names : List String) (ms : List (String × Json)) : Bool :=
  names.all fun name => (ms.filter fun e => e.1 = name).length ≤ 1

/-- The fields of a record read from an object. -/
def memberSlots? (names : List String) : Json → Option (List Slot)
  | .obj ms =>
    if noneRepeated names ms then
      some (names.map fun name => (Assoc.find? name ms).elim .absent .given)
    else none
  | _ => none

/-- The fields of a record read from a list. -/
def itemSlots? (names : List String) : Json → Option (List Slot)
  | .arr xs =>
    if xs.length ≤ names.length then
      some (xs.map .given ++ List.replicate (names.length - xs.length) .leftOff)
    else none
  | _ => none

def slots? (names : List String) (j : Json) : Option (List Slot) :=
  memberSlots? names j <|> itemSlots? names j

/-- The name of an alternative without content: the name itself, or an object with `null` under the
name. -/
def unitName? : Json → Option String
  | .str name => some name
  | .obj [(name, .null)] => some name
  | _ => none

/-- The name of an alternative told by a member of its record, or by the head of the list of its
fields, with the fields. -/
def tagged? (tag : String) : Json → Option (String × Json)
  | .obj ms =>
    match Assoc.find? tag ms with
    | some (.str name) => if noneRepeated [tag] ms then some (name, .obj ms) else none
    | _ => none
  | .arr (.str name :: fields) => some (name, .arr fields)
  | _ => none

end Wire

end LiveForm
