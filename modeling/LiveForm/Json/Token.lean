import LiveForm.Json.Cursor
import LiveForm.Text.Natural

/-!
The pieces of a JSON text: numbers, strings, words such as `true`, and what stands between values.

A number keeps as many leading digits as fit a 64-bit word. The rest of it is a power of ten that
scales this word by one rounded multiplication or division, so long spellings are not always
rounded to the nearest number.
-/

set_option autoImplicit false

namespace LiveForm.Json

open Text

/-! ### Numbers -/

/-- Appends digits to a word while it fits, with the count of digits taken. -/
def takeDigits (word : Nat) : List Char → Nat × Nat
  | [] => (word, 0)
  | d :: ds =>
    if 10 * word + digitValue d < wordBound then
      let (w, n) := takeDigits (10 * word + digitValue d) ds
      (w, n + 1)
    else (word, 0)

/-- The largest power of ten that scaling uses in one step. -/
def scaleLimit : Nat := 308

/-- A word scaled by a power of ten, `none` beyond the largest finite number. Three divisions by
the limit bring every word to zero. -/
def scaleWord (negative : Bool) : Nat → Binary64 → Int → Option Binary64
  | 0, x, _ => some x
  | fuel + 1, x, e =>
    match x, Binary64.ofNat (Nat.pow 10 (min e.natAbs scaleLimit)) with
    | .finite _ 0, _ => some (.finite negative 0)
    | .finite _ a, .finite _ b =>
      if e.natAbs ≤ scaleLimit then
        if 0 ≤ e then
          match Binary64.scaleUp negative a b with
          | .finite n s => some (.finite n s)
          | _ => none
        else some (Binary64.scaleDown negative a b)
      else if 0 ≤ e then none
      else scaleWord negative fuel (Binary64.scaleDown negative a b) (e + scaleLimit)
    | _, _ => none

/-- The floating point number of a word and a power of ten. -/
def scaledNumber (negative : Bool) (word : Nat) (e : Int) (c : Cursor) : Reading Json :=
  match scaleWord negative 4 (Binary64.ofNat word) e with
  | some x => .ok (.float x, c)
  | none => c.fail .numberOutOfRange

/-- One more than the largest exponent that is told from infinity. -/
def exponentBound : Nat := 0x80000000

/-- The digits up to the first that takes the exponent out of bounds. -/
def overflowDigits (e : Nat) : List Char → List Char
  | [] => []
  | d :: ds =>
    if 10 * e + digitValue d < exponentBound then d :: overflowDigits (10 * e + digitValue d) ds
    else [d]

/-- The exponent part, the cursor being at its `e`. -/
def readExponent (negative : Bool) (word : Nat) (start : Int) (c : Cursor) : Reading Json :=
  let c := c.step
  let (down, c) := match c.rest with
    | '+' :: _ => (false, c.step)
    | '-' :: _ => (true, c.step)
    | _ => (false, c)
  match c.rest with
  | [] => c.fail .endInValue
  | d :: _ =>
    if !isAsciiDigit d then c.step.fail .invalidNumber
    else
      let ds := c.rest.takeWhile isAsciiDigit
      if digitsValue ds < exponentBound then
        let e : Int := if down then start - digitsValue ds else start + digitsValue ds
        scaledNumber negative word e (c.skip ds)
      else if word ≠ 0 ∧ !down then (c.skip (overflowDigits 0 ds)).fail .numberOutOfRange
      else .ok (.float (.finite negative 0), c.skip ds)

def atExponent (c : Cursor) : Bool :=
  match c.rest with
  | d :: _ => d = 'e' || d = 'E'
  | [] => false

/-- The part from the point on, the cursor being at the point; `dropped` counts digits of the
whole part that the word has no room for. -/
def readFraction (negative : Bool) (word dropped : Nat) (c : Cursor) : Reading Json :=
  let c := c.step
  let ds := c.rest.takeWhile isAsciiDigit
  if ds.isEmpty then
    if c.rest.isEmpty then c.failAhead .endInValue else c.failAhead .invalidNumber
  else
    let (w, n) := takeDigits word ds
    let e : Int := (dropped : Int) - n
    let c := c.skip ds
    if atExponent c then readExponent negative w e c
    else scaledNumber negative w e c

/-- An integer if it is in range. Minus zero is a floating point number. -/
def integer (negative : Bool) (word : Nat) : Json :=
  if !negative then .int word
  else if word = 0 ∨ 0x8000000000000000 < word then .float (Binary64.ofRatio true word 1)
  else .int (-word)

/-- A number behind its sign. -/
def readNumber (negative : Bool) (c : Cursor) : Reading Json :=
  match c.rest with
  | [] => c.fail .endInValue
  | d :: _ =>
    if !isAsciiDigit d then c.step.fail .invalidNumber
    else
      let ds := c.rest.takeWhile isAsciiDigit
      if d = '0' ∧ ds.length ≠ 1 then c.step.failAhead .invalidNumber
      else
        let (word, n) := takeDigits 0 ds
        let dropped := ds.length - n
        let c := c.skip ds
        match c.rest with
        | '.' :: _ => readFraction negative word dropped c
        | _ =>
          if atExponent c then readExponent negative word dropped c
          else if dropped = 0 then .ok (integer negative word, c)
          else scaledNumber negative word dropped c

/-! ### Strings -/

/-- Four hexadecimal digits, which take four bytes. -/
def readHex (c : Cursor) : Reading Nat :=
  let ds := c.rest.take 4
  match hexDigits? ds with
  | some n =>
    if ds.length = 4 then .ok (n, c.skip ds) else .error (.endInString, c.total)
  | none =>
    if c.offset + 4 ≤ c.total then .error (.invalidEscape, c.offset + 4)
    else .error (.endInString, c.total)

/-- The second half of a pair of surrogates, the cursor being behind the first. -/
def readLowSurrogate (high : Nat) (c : Cursor) : Reading Char :=
  match c.rest with
  | [] => c.fail .endInString
  | '\\' :: _ =>
    let c := c.step
    match c.rest with
    | [] => c.fail .endInString
    | 'u' :: _ =>
      match readHex c.step with
      | .error e => .error e
      | .ok (low, c) =>
        if 0xDC00 ≤ low ∧ low ≤ 0xDFFF then
          .ok (Char.ofNat ((high - 0xD800) * 0x400 + (low - 0xDC00) + 0x10000), c)
        else c.fail .loneSurrogate
    | _ => c.step.fail .hexEscapeEnds
  | _ => c.step.fail .hexEscapeEnds

/-- The number behind a backslash: a code point, or one half of a pair of surrogates. -/
def readUnit (c : Cursor) : Reading Nat :=
  match c.rest with
  | [] => c.fail .endInString
  | '"' :: _ => .ok (0x22, c.step)
  | '\\' :: _ => .ok (0x5C, c.step)
  | '/' :: _ => .ok (0x2F, c.step)
  | 'b' :: _ => .ok (0x08, c.step)
  | 'f' :: _ => .ok (0x0C, c.step)
  | 'n' :: _ => .ok (0x0A, c.step)
  | 'r' :: _ => .ok (0x0D, c.step)
  | 't' :: _ => .ok (0x09, c.step)
  | 'u' :: _ => readHex c.step
  | _ => c.step.fail .invalidEscape

/-- One character behind a backslash. -/
def readEscape (c : Cursor) : Reading Char :=
  match readUnit c with
  | .error e => .error e
  | .ok (n, c) =>
    if 0xDC00 ≤ n ∧ n ≤ 0xDFFF then c.fail .loneSurrogate
    else if 0xD800 ≤ n ∧ n ≤ 0xDBFF then readLowSurrogate n c
    else .ok (Char.ofNat n, c)

/-- The characters up to the closing quote, the last one first. `fuel` bounds their number. -/
def readChars : Nat → List Char → Cursor → Reading (List Char)
  | 0, _, c => c.fail .endInString
  | fuel + 1, acc, c =>
    match c.rest with
    | [] => c.fail .endInString
    | '"' :: _ => .ok (acc, c.step)
    | '\\' :: _ =>
      match readEscape c.step with
      | .error e => .error e
      | .ok (ch, c) => readChars fuel (ch :: acc) c
    | ch :: _ =>
      if ch.toNat < 32 then c.step.fail .controlCharacter
      else readChars fuel (ch :: acc) (c.skip [ch])

/-- A string behind its opening quote. -/
def readString (c : Cursor) : Reading String :=
  match readChars (c.total + 1) [] c with
  | .error e => .error e
  | .ok (cs, c) => .ok (String.ofList cs.reverse, c)

/-! ### Words and marks -/

/-- The rest of a word such as `true`, character by character. -/
def readWord (v : Json) : List Char → Cursor → Reading Json
  | [], c => .ok (v, c)
  | w :: ws, c =>
    match c.rest with
    | [] => c.fail .endInValue
    | d :: _ => if d = w then readWord v ws c.step else c.step.fail .identExpected

/-- Goes to the next item of a list, `false` at its end. -/
def nextItem (first : Bool) (c : Cursor) : Reading Bool :=
  let c := c.skipSpace
  match c.rest with
  | [] => c.failAhead .endInList
  | ']' :: _ => .ok (false, c.step)
  | ',' :: _ =>
    if first then .ok (true, c)
    else
      let c := c.step.skipSpace
      match c.rest with
      | [] => c.failAhead .endInValue
      | ']' :: _ => c.failAhead .trailingComma
      | _ => .ok (true, c)
  | _ => if first then .ok (true, c) else c.failAhead .listSeparatorExpected

/-- Goes to the opening quote of the next key of an object, `false` at its end. -/
def nextKey (first : Bool) (c : Cursor) : Reading Bool :=
  let c := c.skipSpace
  match c.rest with
  | [] => c.failAhead .endInObject
  | d :: _ =>
    if d = '\x7d' then .ok (false, c.step)
    else if first then
      if d = '"' then .ok (true, c) else c.failAhead .keyNotString
    else if d = ',' then
      let c := c.step.skipSpace
      match c.rest with
      | [] => c.failAhead .endInValue
      | d :: _ =>
        if d = '"' then .ok (true, c)
        else if d = '\x7d' then c.failAhead .trailingComma
        else c.failAhead .keyNotString
    else c.failAhead .objectSeparatorExpected

def readColon (c : Cursor) : Reading Unit :=
  let c := c.skipSpace
  match c.rest with
  | [] => c.failAhead .endInObject
  | ':' :: _ => .ok ((), c.step)
  | _ => c.failAhead .colonExpected

end LiveForm.Json
