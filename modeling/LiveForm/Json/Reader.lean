import LiveForm.Json.Skim

/-!
Reading JSON text. A fault names its cause and the place where it was noticed: the line, and the
count of bytes read of that line. Values nest at most 127 deep. Of the members of an object only
those are read that the reader was asked for; the others are skimmed over.
-/

set_option autoImplicit false

namespace LiveForm.Json

open Text

/-- What is wanted of a value. A record may also be written as the list of its fields. -/
inductive Shape where
  | any
  | record (fields : List (String × Shape))
  | list (item : Shape)

/-- What is wanted of the first item of a list, and of the items behind it. -/
def Shape.split : Shape → Shape × Shape
  | .record ((_, first) :: fields) => (first, .record fields)
  | .list item => (item, .list item)
  | _ => (.any, .any)

/-- What is wanted of a member, `none` if nothing is. -/
def Shape.member? (shape : Shape) (key : String) : Option Shape :=
  match shape with
  | .record fields => Assoc.find? key fields
  | _ => some .any

mutual

/-- One value. `depth` bounds the nesting, `fuel` the work. -/
def readValue : Nat → Nat → Shape → Cursor → Reading Json
  | 0, _, _, c => c.fail .endInValue
  | fuel + 1, depth, shape, c =>
    let c := c.skipSpace
    match c.rest with
    | [] => c.failAhead .endInValue
    | d :: _ =>
      if d = 'n' then readWord .null ['u', 'l', 'l'] c.step
      else if d = 't' then readWord (.bool true) ['r', 'u', 'e'] c.step
      else if d = 'f' then readWord (.bool false) ['a', 'l', 's', 'e'] c.step
      else if d = '-' then readNumber true c.step
      else if isAsciiDigit d then readNumber false c
      else if d = '"' then
        match readString c.step with
        | .error e => .error e
        | .ok (s, c) => .ok (.str s, c)
      else if d = '[' then
        if depth ≤ 1 then c.failAhead .nestedTooDeep
        else readItems fuel (depth - 1) shape [] c.step
      else if d = '\x7b' then
        if depth ≤ 1 then c.failAhead .nestedTooDeep
        else readMembers fuel (depth - 1) shape [] c.step
      else c.failAhead .valueExpected

/-- The items up to the closing bracket, those before them the last one first. -/
def readItems : Nat → Nat → Shape → List Json → Cursor → Reading Json
  | 0, _, _, _, c => c.fail .endInList
  | fuel + 1, depth, shape, acc, c =>
    match nextItem acc.isEmpty c with
    | .error e => .error e
    | .ok (false, c) => .ok (.arr acc.reverse, c)
    | .ok (true, c) =>
      let (first, others) := shape.split
      match readValue fuel depth first c with
      | .error e => .error e
      | .ok (v, c) => readItems fuel depth others (v :: acc) c

/-- The members up to the closing brace, in the order of the text; those before them come the last
one first. -/
def readMembers : Nat → Nat → Shape → List (String × Json) → Cursor → Reading Json
  | 0, _, _, _, c => c.fail .endInObject
  | fuel + 1, depth, shape, acc, c =>
    match nextKey acc.isEmpty c with
    | .error e => .error e
    | .ok (false, c) => .ok (.obj acc.reverse, c)
    | .ok (true, c) =>
      match readString c.step with
      | .error e => .error e
      | .ok (k, c) =>
        match readColon c with
        | .error e => .error e
        | .ok ((), c) =>
          match readMember fuel depth (shape.member? k) c with
          | .error e => .error e
          | .ok (v, c) => readMembers fuel depth shape ((k, v) :: acc) c

/-- The value of a member; one that is not wanted counts as `null`. -/
def readMember : Nat → Nat → Option Shape → Cursor → Reading Json
  | 0, _, _, c => c.fail .endInValue
  | fuel + 1, depth, some shape, c => readValue fuel depth shape c
  | _ + 1, _, none, c => (skimValue c).map fun (_, c) => (.null, c)

end

/-- Values nest less deep than this. -/
def depthLimit : Nat := 128

/-- A fault with its line, counted from one, and the bytes read of that line. -/
structure LocatedFault where
  fault : ReadFault
  line : Nat
  column : Nat
  deriving DecidableEq, Repr

def LocatedFault.message (e : LocatedFault) : String :=
  s!"{e.fault.text} at line {e.line} column {e.column}"

/-- Line and column of a byte offset. -/
def locate (line column : Nat) : Nat → List Char → Nat × Nat
  | 0, _ => (line, column)
  | _, [] => (line, column)
  | bytes + 1, c :: cs =>
    if c = '\n' then locate (line + 1) 0 bytes cs
    else if bytes + 1 < c.utf8Size then (line, column + bytes + 1)
    else locate line (column + c.utf8Size) (bytes + 1 - c.utf8Size) cs

def locateFault (s : String) (e : ReadFault × Nat) : LocatedFault :=
  let (line, column) := locate 1 0 e.2 s.toList
  ⟨e.1, line, column⟩

/-- One value with nothing but space around it; members as written, repeated keys included. -/
def readDocument (shape : Shape) (s : String) : Except LocatedFault Json :=
  let start := Cursor.ofText s
  match readValue (3 * (start.rest.length + 1)) depthLimit shape start with
  | .error e => .error (locateFault s e)
  | .ok (v, c) =>
    let c := c.skipSpace
    if c.rest.isEmpty then .ok v
    else .error (locateFault s (.trailingCharacters, min c.total (c.offset + 1)))

/-- Reads a value; of members with one key the last counts. -/
def ofText (s : String) : Except LocatedFault Json := (readDocument .any s).map normalize

end LiveForm.Json
