import LiveForm.Number.Binary64
import LiveForm.Text.Natural

/-!
Floating point numbers read from decimal text, rounded once to the nearest value.
-/

set_option autoImplicit false

namespace LiveForm.Binary64

open Text

/-- `digits · 10 ^ exponent`, rounded to nearest. Exponents beyond every representable magnitude
are settled without forming the power. -/
def ofDecimal (negative : Bool) (digits : Nat) (exponent : Int) : Binary64 :=
  let magnitude : Int := exponent + (Nat.toDigits 10 digits).length
  if digits = 0 ∨ magnitude < -400 then .finite negative 0
  else if 400 < magnitude then .infinite negative
  else if 0 ≤ exponent then ofRatio negative (digits * Nat.pow 10 exponent.toNat) 1
  else ofRatio negative digits (Nat.pow 10 (-exponent).toNat)

def lowerAscii (c : Char) : Char :=
  if 'A' ≤ c ∧ c ≤ 'Z' then Char.ofNat (c.toNat + 32) else c

/-- The words for the numbers that digits cannot spell, in any mixture of case. -/
def word? (negative : Bool) (cs : List Char) : Option Binary64 :=
  let w := cs.map lowerAscii
  if w = ['n', 'a', 'n'] then some .nan
  else if w = ['i', 'n', 'f'] ∨ w = ['i', 'n', 'f', 'i', 'n', 'i', 't', 'y'] then
    some (.infinite negative)
  else none

/-- The value of an exponent part such as `e-7`; zero where there is none. -/
def exponent? : List Char → Option Int
  | [] => some 0
  | c :: cs =>
    if c ≠ 'e' ∧ c ≠ 'E' then none
    else match cs with
      | '-' :: ds => if ds.isEmpty || !ds.all isAsciiDigit then none else some (-(digitsValue ds))
      | '+' :: ds => if ds.isEmpty || !ds.all isAsciiDigit then none else some (digitsValue ds)
      | ds => if ds.isEmpty || !ds.all isAsciiDigit then none else some (digitsValue ds)

/-- Digits with an optional point, at least one digit in all, and an optional exponent. -/
def unsigned? (negative : Bool) (cs : List Char) : Option Binary64 :=
  let whole := cs.takeWhile isAsciiDigit
  let afterWhole := cs.dropWhile isAsciiDigit
  let (fraction, rest) := match afterWhole with
    | '.' :: ds => (ds.takeWhile isAsciiDigit, ds.dropWhile isAsciiDigit)
    | ds => ([], ds)
  if whole.isEmpty && fraction.isEmpty then none
  else (exponent? rest).map fun e =>
    ofDecimal negative (digitsValue (whole ++ fraction)) (e - fraction.length)

/-- Reads `12`, `-.5`, `5.`, `1e3`, `inf`, `+Infinity`, `nan`; nothing before or after. -/
def ofText? (s : String) : Option Binary64 :=
  let (negative, cs) := match s.toList with
    | '-' :: cs => (true, cs)
    | '+' :: cs => (false, cs)
    | cs => (false, cs)
  match word? negative cs with
  | some x => some x
  | none => unsigned? negative cs

example : ofText? "-5e-1" = ofText? "-.5" ∧ ofText? "5 5" = none ∧ ofText? "." = none := by
  decide +kernel

end LiveForm.Binary64
