/-!
Binary floating point numbers of 64 bits as exact integers. Every finite value is a whole number
of steps of `2 ^ -1074`, so comparison and equality are those of integers, and rounding is one
division.
-/

set_option autoImplicit false

namespace LiveForm

/-- A finite number is `± steps · 2 ^ -1074`. -/
inductive Binary64 where
  | nan
  | infinite (negative : Bool)
  | finite (negative : Bool) (steps : Nat)
  deriving DecidableEq, Repr, Inhabited

namespace Binary64

/-- The whole number nearest to `num / den`, an exact half going to the even neighbour. -/
def nearestEven (num den : Nat) : Nat :=
  let whole := num / den
  let rest := num % den
  if 2 * rest < den then whole
  else if den < 2 * rest then whole + 1
  else if whole % 2 = 0 then whole else whole + 1

/-- How many low bits a whole number loses when 53 are kept. -/
def excessBits (n : Nat) : Nat := n.log2 - 52

/-- `num / den` steps, rounded to 53 significant bits. -/
def roundSteps (num den : Nat) : Nat :=
  let shift := excessBits (num / den)
  nearestEven num (den * Nat.pow 2 shift) * Nat.pow 2 shift

/-- One more than the largest finite number of steps, rounded up to a power of two. -/
def overflowSteps : Nat := Nat.pow 2 (1024 + 1074)

/-- The number nearest to `num / den`. -/
def ofRatio (negative : Bool) (num den : Nat) : Binary64 :=
  let steps := roundSteps (num * Nat.pow 2 1074) den
  if steps < overflowSteps then .finite negative steps else .infinite negative

def ofNat (n : Nat) : Binary64 := ofRatio false n 1

def ofInt (n : Int) : Binary64 := ofRatio (n < 0) n.natAbs 1

def isFinite : Binary64 → Bool
  | .finite _ _ => true
  | _ => false

/-- The value of a finite number in steps. -/
def signedSteps (negative : Bool) (steps : Nat) : Int := if negative then -steps else steps

/-- Less than, by value. Nothing is less than `nan`, nor `nan` less than anything. -/
def lt : Binary64 → Binary64 → Bool
  | .finite n a, .finite m b => signedSteps n a < signedSteps m b
  | .infinite n, .infinite m => n && !m
  | .infinite n, .finite _ _ => n
  | .finite _ _, .infinite m => !m
  | _, _ => false

/-- Equal, by value: the two zeros are equal and `nan` is equal to nothing. -/
def sameValue : Binary64 → Binary64 → Bool
  | .finite n a, .finite m b => signedSteps n a = signedSteps m b
  | .infinite n, .infinite m => n = m
  | _, _ => false

/-- The product of two finite positive numbers of steps. -/
def scaleUp (negative : Bool) (a b : Nat) : Binary64 := ofRatio negative (a * b) (Nat.pow 2 2148)

/-- The quotient of two finite positive numbers of steps. -/
def scaleDown (negative : Bool) (a b : Nat) : Binary64 := ofRatio negative a b

example : lt (ofNat 1) (ofRatio false 3 2) ∧ sameValue (.finite true 0) (.finite false 0) := by
  decide +kernel

example : ofRatio false 1 10 = .finite false (3602879701896397 * Nat.pow 2 1019) := by decide +kernel

end Binary64

end LiveForm
