/-!
Blank characters and trimming. A character is blank when Unicode gives it the property
`White_Space`: no zero width space, no byte order mark.
-/

set_option autoImplicit false

namespace LiveForm.Text

def inRanges (ranges : List (Nat × Nat)) (c : Char) : Bool :=
  ranges.any fun r => r.1 ≤ c.toNat && c.toNat ≤ r.2

/-- The property `White_Space`, as closed ranges of code points. -/
def blankRanges : List (Nat × Nat) :=
  [(0x09, 0x0D), (0x20, 0x20), (0x85, 0x85), (0xA0, 0xA0), (0x1680, 0x1680), (0x2000, 0x200A),
   (0x2028, 0x2029), (0x202F, 0x202F), (0x205F, 0x205F), (0x3000, 0x3000)]

def isBlank (c : Char) : Bool := inRanges blankRanges c

def trimStart (cs : List Char) : List Char := cs.dropWhile isBlank

def trimEnd (cs : List Char) : List Char := (cs.reverse.dropWhile isBlank).reverse

def trimChars (cs : List Char) : List Char := trimEnd (trimStart cs)

def trim (s : String) : String := String.ofList (trimChars s.toList)

/-- Holds of text with nothing but blanks in it. -/
def isBlankText (s : String) : Bool := s.toList.all isBlank

/-- The length of a run of characters in UTF-8 bytes. -/
def byteLength (cs : List Char) : Nat := (cs.map fun c => c.utf8Size).foldr (· + ·) 0

end LiveForm.Text
