import LiveForm.Number.Binary64

/-!
The fewest decimal digits that read back as a given number, and of those the nearest to it. The
numbers that round to a given one fill an interval; a decimal with `n` digits lies in it only if
one of the value's two neighbours on the grid of `n` digits does.
-/

set_option autoImplicit false

namespace LiveForm

/-- `digits · 10 ^ exponent`. -/
structure Decimal where
  digits : Nat
  exponent : Int
  deriving DecidableEq, Repr

/-- Which of two equally near decimals is taken. -/
inductive TieRule where
  | up
  | even
  deriving DecidableEq, Repr

namespace Decimal

/-- The count of decimal digits of a positive number. -/
def digitCount (n : Nat) : Nat := (Nat.toDigits 10 n).length

/-- The positive value `num / den · 10 ^ e` as a fraction. -/
def scaled (num den : Nat) (e : Int) : Nat × Nat :=
  if 0 ≤ e then (num * Nat.pow 10 e.toNat, den) else (num, den * Nat.pow 10 (-e).toNat)

/-- How many places a fraction below one has to move before it reaches one; at most `fuel`. -/
def placesBelowOne (num den : Nat) : Nat → Nat
  | 0 => 0
  | fuel + 1 => if den ≤ num then 0 else placesBelowOne (num * 10) den fuel + 1

/-- The exponent of the leading decimal digit of a positive fraction. -/
def leadingExponent (num den : Nat) : Int :=
  if den ≤ num then (digitCount (num / den) : Int) - 1 else -(placesBelowOne num den 400 : Int)

/-- Drops trailing zeros into the exponent. -/
def trimZeros : Nat → Decimal → Decimal
  | 0, d => d
  | fuel + 1, d =>
    if d.digits ≠ 0 ∧ d.digits % 10 = 0 then trimZeros fuel ⟨d.digits / 10, d.exponent + 1⟩ else d

end Decimal

namespace Binary64

/-- The numbers that round to a given one, in quarters of a step, with the ends if `closed`. -/
structure Neighbourhood where
  low : Nat
  high : Nat
  closed : Bool

def neighbourhood (steps : Nat) : Neighbourhood :=
  let shift := excessBits steps
  let significand := steps / Nat.pow 2 shift
  let gap := 2 * Nat.pow 2 shift
  let below := if significand = 0x10000000000000 ∧ 0 < shift then Nat.pow 2 shift else gap
  ⟨4 * steps - below, 4 * steps + gap, significand % 2 = 0⟩

/-- Quarters of a step to the unit. -/
def quartersPerUnit : Nat := Nat.pow 2 1076

def Neighbourhood.contains (i : Neighbourhood) (d : Decimal) : Bool :=
  let (num, den) := Decimal.scaled (d.digits * quartersPerUnit) 1 d.exponent
  if i.closed then i.low * den ≤ num && num ≤ i.high * den
  else i.low * den < num && num < i.high * den

/-- The better of the two grid points around `num / den`, if one of them reads back. -/
def gridPoint? (tie : TieRule) (i : Neighbourhood) (num den : Nat) (e : Int) : Option Decimal :=
  let (n, d) := Decimal.scaled num den (-e)
  let lower : Decimal := ⟨n / d, e⟩
  let upper : Decimal := ⟨n / d + 1, e⟩
  match lower.digits ≠ 0 && i.contains lower, i.contains upper with
  | false, false => none
  | true, false => some lower
  | false, true => some upper
  | true, true =>
    let rest := 2 * (n % d)
    if rest < d then some lower
    else if d < rest then some upper
    else match tie with
      | .up => some upper
      | .even => if lower.digits % 2 = 0 then some lower else some upper

/-- The first grid with a point that reads back, from `17 - fuel` digits on. -/
def searchGrid (tie : TieRule) (i : Neighbourhood) (num den : Nat) (leading : Int) :
    Nat → Option Decimal
  | 0 => none
  | fuel + 1 =>
    match gridPoint? tie i num den (leading - ((17 - (fuel + 1) : Nat) : Int)) with
    | some d => some d
    | none => searchGrid tie i num den leading fuel

/-- The shortest decimal that reads back as a finite number of `steps`; zero for zero. -/
def shortest (tie : TieRule) (steps : Nat) : Decimal :=
  if steps = 0 then ⟨0, 0⟩
  else
    let num := 4 * steps
    let leading := Decimal.leadingExponent num quartersPerUnit
    ((searchGrid tie (neighbourhood steps) num quartersPerUnit leading 17).map
      (Decimal.trimZeros 400)).getD ⟨0, 0⟩

end Binary64

/-! ### Text -/

namespace Decimal

def digitChars (d : Decimal) : List Char := Nat.toDigits 10 d.digits

def zeros (n : Nat) : List Char := List.replicate n '0'

/-- Positional notation without an exponent and without a needless point: `120`, `0.05`, `1.5`. -/
def positional (d : Decimal) : List Char :=
  let ds := d.digitChars
  if 0 ≤ d.exponent then ds ++ zeros d.exponent.toNat
  else
    let places := (-d.exponent).toNat
    if places < ds.length then
      ds.take (ds.length - places) ++ '.' :: ds.drop (ds.length - places)
    else '0' :: '.' :: zeros (places - ds.length) ++ ds

/-- The place of the point behind the leading digit, counted from the front of the digits. -/
def pointPlace (d : Decimal) : Int := (d.digitChars.length : Int) + d.exponent

/-- An exponent, always with its sign. -/
def exponentChars (e : Int) : List Char :=
  'e' :: (if e < 0 then '-' else '+') :: Nat.toDigits 10 e.natAbs

/-- Positional with at least one place behind the point while the point stands within 16 digits
and no more than four zeros follow it; else one digit before the point and an exponent. -/
def pointed (d : Decimal) : List Char :=
  let point := d.pointPlace
  if 0 ≤ d.exponent ∧ point ≤ 16 then d.positional ++ ['.', '0']
  else if -5 < point ∧ point ≤ 16 then d.positional
  else match d.digitChars with
    | [c] => c :: exponentChars (point - 1)
    | c :: cs => c :: '.' :: cs ++ exponentChars (point - 1)
    | [] => []

end Decimal

namespace Binary64

def signed (negative : Bool) (cs : List Char) : String :=
  String.ofList (if negative then '-' :: cs else cs)

/-- Plain text of a number, as messages show it. -/
def plainText : Binary64 → String
  | .nan => "NaN"
  | .infinite negative => signed negative ['i', 'n', 'f']
  | .finite negative steps => signed negative (shortest .up steps).positional

/-- Text of a number that reads back as a floating point number, never as an integer. -/
def pointedText : Binary64 → String
  | .nan => "NaN"
  | .infinite negative => signed negative ['i', 'n', 'f']
  | .finite negative steps => signed negative (shortest .even steps).pointed

end Binary64

end LiveForm
