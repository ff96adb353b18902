import LiveForm.Assoc
import LiveForm.Number.Binary64

/-!
Values of JSON. Integers are kept apart from floating point numbers: `1` and `1.0` are two values,
while the two floating point zeros are one. Members of a document stand in the order of their keys
(`normalize`); those of a record that is written out stand in the order of its fields.
-/

set_option autoImplicit false

namespace LiveForm

/-- A JSON value. An `int` lies between `-2 ^ 63` and `2 ^ 64 - 1`. -/
inductive Json where
  | null
  | bool (b : Bool)
  | int (n : Int)
  | float (x : Binary64)
  | str (s : String)
  | arr (items : List Json)
  | obj (members : List (String × Json))
  deriving Inhabited, Repr

namespace Json

def emptyObject : Json := .obj []

def isArray : Json → Bool
  | .arr _ => true
  | _ => false

def isNull : Json → Bool
  | .null => true
  | _ => false

/-- The range of integers; a number outside it is a floating point number. -/
def inIntRange (n : Int) : Bool := -0x8000000000000000 ≤ n && n < 0x10000000000000000

mutual

/-- Equality of values: floating point numbers by value, everything else by structure. -/
def same : Json → Json → Bool
  | .null, .null => true
  | .bool a, .bool b => a == b
  | .int m, .int n => m == n
  | .float x, .float y => x.sameValue y
  | .str s, .str t => s == t
  | .arr xs, .arr ys => sameItems xs ys
  | .obj xs, .obj ys => sameMembers xs ys
  | _, _ => false

def sameItems : List Json → List Json → Bool
  | [], [] => true
  | x :: xs, y :: ys => same x y && sameItems xs ys
  | _, _ => false

def sameMembers : List (String × Json) → List (String × Json) → Bool
  | [], [] => true
  | (k, x) :: xs, (l, y) :: ys => k == l && same x y && sameMembers xs ys
  | _, _ => false

end

instance : BEq Json := ⟨same⟩

mutual

/-- Sorts the members of every object; of two members with one key the later stays. -/
def normalize : Json → Json
  | .arr xs => .arr (normalizeItems xs)
  | .obj ms => .obj (Assoc.ofPairs (normalizeMembers ms))
  | v => v

def normalizeItems : List Json → List Json
  | [] => []
  | x :: xs => normalize x :: normalizeItems xs

def normalizeMembers : List (String × Json) → List (String × Json)
  | [] => []
  | (k, v) :: ms => (k, normalize v) :: normalizeMembers ms

end

mutual

/-- Holds of values whose objects have strictly increasing keys and whose numbers are in range:
integers between `-2 ^ 63` and `2 ^ 64 - 1`, floating point numbers finite. -/
def WellFormed : Json → Prop
  | .int n => inIntRange n = true
  | .float x => x.isFinite = true
  | .arr xs => WellFormedItems xs
  | .obj ms => Assoc.Sorted ms ∧ WellFormedMembers ms
  | _ => True

def WellFormedItems : List Json → Prop
  | [] => True
  | x :: xs => WellFormed x ∧ WellFormedItems xs

def WellFormedMembers : List (String × Json) → Prop
  | [] => True
  | (_, v) :: ms => WellFormed v ∧ WellFormedMembers ms

end

end Json

end LiveForm
