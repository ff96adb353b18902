import LiveForm.Pattern.CharSet

/-!
Sets of characters as sequences of byte ranges: what the UTF-8 forms of a set's characters look like
byte by byte. A range of characters falls into few sequences, each of which stands for all ways to
take a byte from every one of its ranges.
-/

set_option autoImplicit false

namespace LiveForm.Pattern

/-- The bytes that may stand at one place, the smallest and the largest. -/
abbrev ByteRange := Nat × Nat

def tailByte (n : Nat) : Nat := 0x80 + n

def anyTail : ByteRange := (tailByte 0, tailByte 63)

/-- The sequences of the numbers from `a` to `b`, written with a leading byte, whose first value is
`lead`, and so many bytes of six bits. -/
def sequencesWithin (lead : Nat) : Nat → Nat → Nat → List (List ByteRange)
  | 0, a, b => [[(lead + a, lead + b)]]
  | tails + 1, a, b =>
    let unit := 64 ^ (tails + 1)
    let under (n : Nat) (rest : List (List ByteRange)) : List (List ByteRange) :=
      rest.map fun seq => (lead + n, lead + n) :: seq
    let inner := sequencesWithin 0x80 tails
    if a / unit = b / unit then under (a / unit) (inner (a % unit) (b % unit))
    else
      let first := if a % unit = 0 then a / unit else a / unit + 1
      let last := if b % unit = unit - 1 then b / unit else b / unit - 1
      let low := if a % unit = 0 then [] else under (a / unit) (inner (a % unit) (unit - 1))
      let high := if b % unit = unit - 1 then [] else under (b / unit) (inner 0 (b % unit))
      let between :=
        if first ≤ last then [(lead + first, lead + last) :: List.replicate (tails + 1) anyTail]
        else []
      low ++ between ++ high

/-- Code points whose forms are equally long: the smallest and the largest, the count of bytes
behind the leading one, and the leading byte without bits of the number. -/
structure Utf8Zone where
  first : Nat
  last : Nat
  tails : Nat
  lead : Nat

def utf8Zones : List Utf8Zone :=
  [⟨0x0, 0x7F, 0, 0x00⟩, ⟨0x80, 0x7FF, 1, 0xC0⟩, ⟨0x800, 0xD7FF, 2, 0xE0⟩,
   ⟨0xE000, 0xFFFF, 2, 0xE0⟩, ⟨0x10000, 0x10FFFF, 3, 0xF0⟩]

/-- The sequences of one range of code points, in ascending order. -/
def rangeSequences (r : Nat × Nat) : List (List ByteRange) :=
  utf8Zones.flatMap fun zone =>
    let a := max r.1 zone.first
    let b := min r.2 zone.last
    if a ≤ b then sequencesWithin zone.lead zone.tails a b else []

def byteSequences (s : CharSet) : List (List ByteRange) := s.ranges.flatMap rangeSequences

example : rangeSequences (0x7F, 0x801) =
    [[(0x7F, 0x7F)], [(0xC2, 0xDF), (0x80, 0xBF)], [(0xE0, 0xE0), (0xA0, 0xA0), (0x80, 0x81)]] := by
  decide

end LiveForm.Pattern
