import LiveForm.Json.Basic
import LiveForm.Text.Blank

/-!
A place in a JSON text, and the faults that reading can come upon.
-/

set_option autoImplicit false

namespace LiveForm.Json

open Text

inductive ReadFault where
  | endInList
  | endInObject
  | endInString
  | endInValue
  | colonExpected
  | listSeparatorExpected
  | objectSeparatorExpected
  | identExpected
  | valueExpected
  | invalidEscape
  | invalidNumber
  | numberOutOfRange
  | controlCharacter
  | keyNotString
  | loneSurrogate
  | trailingComma
  | trailingCharacters
  | hexEscapeEnds
  | nestedTooDeep
  deriving DecidableEq, Repr

def ReadFault.text : ReadFault → String
  | .endInList => "EOF while parsing a list"
  | .endInObject => "EOF while parsing an object"
  | .endInString => "EOF while parsing a string"
  | .endInValue => "EOF while parsing a value"
  | .colonExpected => "expected `:`"
  | .listSeparatorExpected => "expected `,` or `]`"
  | .objectSeparatorExpected => "expected `,` or `\x7d`"
  | .identExpected => "expected ident"
  | .valueExpected => "expected value"
  | .invalidEscape => "invalid escape"
  | .invalidNumber => "invalid number"
  | .numberOutOfRange => "number out of range"
  | .controlCharacter => "control character (\\u0000-\\u001F) found while parsing a string"
  | .keyNotString => "key must be a string"
  | .loneSurrogate => "lone leading surrogate in hex escape"
  | .trailingComma => "trailing comma"
  | .trailingCharacters => "trailing characters"
  | .hexEscapeEnds => "unexpected end of hex escape"
  | .nestedTooDeep => "recursion limit exceeded"

/-- What is left to read, the bytes read so far, and the bytes of the whole text. -/
structure Cursor where
  rest : List Char
  offset : Nat
  total : Nat

/-- A fault and the byte offset at which it was noticed. -/
abbrev Reading (α : Type) := Except (ReadFault × Nat) (α × Cursor)

namespace Cursor

def skip (c : Cursor) (cs : List Char) : Cursor :=
  ⟨c.rest.drop cs.length, c.offset + byteLength cs, c.total⟩

/-- Fails at the place reached. -/
def fail {α : Type} (c : Cursor) (f : ReadFault) : Reading α := .error (f, c.offset)

/-- Fails one byte further on, at the byte that was looked at. -/
def failAhead {α : Type} (c : Cursor) (f : ReadFault) : Reading α :=
  .error (f, min c.total (c.offset + 1))

def isSpace (c : Char) : Bool := c = ' ' || c = '\n' || c = '\t' || c = '\r'

def skipSpace (c : Cursor) : Cursor := c.skip (c.rest.takeWhile isSpace)

/-- Steps over one ASCII character. -/
def step (c : Cursor) : Cursor := ⟨c.rest.tail, c.offset + 1, c.total⟩

def ofText (s : String) : Cursor := ⟨s.toList, 0, s.utf8ByteSize⟩

end Cursor

end LiveForm.Json
