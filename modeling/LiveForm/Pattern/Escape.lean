import LiveForm.Pattern.CharSet
import LiveForm.Text.Digit
import LiveForm.Text.Natural

/-!
What stands behind a backslash in a pattern: marks that stand for themselves, characters with names
or with hexadecimal numbers, the sets `\d` and `\s` with their complements, and the ends of the
text.
-/

set_option autoImplicit false

namespace LiveForm.Pattern

open Text

inductive Escape where
  | char (c : Char)
  | set (s : CharSet)
  | textStart
  | textEnd
  deriving DecidableEq, Repr

/-- A character that stands for itself behind a backslash. -/
def isEscapable (c : Char) : Bool :=
  c.toNat < 128 && !c.isAlphanum && c ≠ '<' && c ≠ '>'

/-- What a single character behind a backslash stands for. -/
def namedEscape? (c : Char) : Option Escape :=
  if isEscapable c then some (.char c)
  else if c = 'n' then some (.char '\n')
  else if c = 't' then some (.char '\t')
  else if c = 'r' then some (.char '\r')
  else if c = 'f' then some (.char '\x0c')
  else if c = 'v' then some (.char '\x0b')
  else if c = 'a' then some (.char '\x07')
  else if c = 'd' then some (.set ⟨digitRanges⟩)
  else if c = 'D' then some (.set (CharSet.complement ⟨digitRanges⟩))
  else if c = 's' then some (.set ⟨blankRanges⟩)
  else if c = 'S' then some (.set (CharSet.complement ⟨blankRanges⟩))
  else if c = 'A' then some .textStart
  else if c = 'z' then some .textEnd
  else none

/-- How many hexadecimal digits follow a letter that announces them. -/
def hexLength? (c : Char) : Option Nat :=
  if c = 'x' then some 2 else if c = 'u' then some 4 else if c = 'U' then some 8 else none

/-- The character with a hexadecimal number. -/
def hexChar? (ds : List Char) : Option Char :=
  (hexDigits? ds).bind fun n => if n.isValidChar ∧ !ds.isEmpty then some (Char.ofNat n) else none

/-- A character by its number: so many digits, or any number of them in braces. -/
def hexEscape? (length : Nat) (cs : List Char) : Option (Escape × List Char) :=
  match cs with
  | [] => none
  | c :: rest =>
    if c = '\x7b' then
      let ds := rest.takeWhile (· ≠ '\x7d')
      if ds.length = rest.length then none
      else (hexChar? ds).map fun c => (.char c, rest.drop (ds.length + 1))
    else if cs.length < length then none
    else (hexChar? (cs.take length)).map fun c => (.char c, cs.drop length)

/-- Reads what stands behind a backslash. -/
def escape? : List Char → Option (Escape × List Char)
  | [] => none
  | c :: cs =>
    match hexLength? c with
    | some length => hexEscape? length cs
    | none => (namedEscape? c).map fun e => (e, cs)

end LiveForm.Pattern
