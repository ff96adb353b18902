/-!
Natural numbers in text: ASCII digits with an optional plus sign in front, leading zeros allowed,
the value below a bound. Hexadecimal digits come in both cases.
-/

set_option autoImplicit false

namespace LiveForm.Text

def isAsciiDigit (c : Char) : Bool := '0' ≤ c && c ≤ '9'

def digitValue (c : Char) : Nat := c.toNat - '0'.toNat

/-- The number that a run of ASCII digits spells. -/
def digitsValue (cs : List Char) : Nat := cs.foldl (fun n c => 10 * n + digitValue c) 0

/-- The number spelled by digits alone, `none` without a digit or with any other character. -/
def digits? (bound : Nat) (cs : List Char) : Option Nat :=
  if cs.isEmpty || !cs.all isAsciiDigit then none
  else if digitsValue cs < bound then some (digitsValue cs) else none

def hexValue? (c : Char) : Option Nat :=
  if '0' ≤ c ∧ c ≤ '9' then some (c.toNat - 48)
  else if 'a' ≤ c ∧ c ≤ 'f' then some (c.toNat - 87)
  else if 'A' ≤ c ∧ c ≤ 'F' then some (c.toNat - 55)
  else none

/-- The number spelled by hexadecimal digits, `none` with any other character. -/
def hexDigits? (cs : List Char) : Option Nat :=
  (cs.mapM hexValue?).map fun ds => ds.foldl (fun n d => 16 * n + d) 0

def naturalChars? (bound : Nat) : List Char → Option Nat
  | '+' :: cs => digits? bound cs
  | cs => digits? bound cs

def natural? (bound : Nat) (s : String) : Option Nat := naturalChars? bound s.toList

/-- One more than the largest 64-bit word. -/
def wordBound : Nat := 0x10000000000000000

def word? (s : String) : Option UInt64 := (natural? wordBound s).map UInt64.ofNat

end LiveForm.Text
