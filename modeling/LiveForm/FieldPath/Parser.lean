import LiveForm.FieldPath.Basic
import LiveForm.Text.Blank

/-!
Reading paths: names between points, and bracketed segments such as `[0]` or `["out-year"]`, which
may follow a name, a bracket or a point. A name runs up to the next point or opening bracket, the
inside of a bracket up to the next closing one.
-/

set_option autoImplicit false

namespace LiveForm.FieldPath

open Text

/-- Where the reader stands, with what it has read of the segment at hand, last character first. -/
inductive Place where
  | start
  | name (read : List Char)
  | afterPoint
  | bracket (read : List Char)
  | closed

/-- Takes one pair of equal quotes off. -/
def unquote (cs : List Char) : List Char :=
  match cs with
  | q :: rest =>
    if (q = '"' ∨ q = '\'') ∧ rest.getLast? = some q then rest.dropLast else cs
  | [] => []

/-- The segment inside a bracket. -/
def bracketSegment (read : List Char) : List Char := unquote (trimChars read.reverse)

/-- Adds a finished segment, or fails if it is empty. -/
def closeBracket (path : String) (read : List Char) (done : List String) :
    Except PathError (List String) :=
  let inner := bracketSegment read
  if inner.isEmpty then .error (.emptyBracket path) else .ok (String.ofList inner :: done)

/-- Reads on from byte `pos`; `done` holds the finished segments, the last one first. -/
def scan (path : String) : Place → List String → Nat → List Char → Except PathError (List String)
  | .start, _, pos, [] => .error (.emptySegment path pos)
  | .name read, done, _, [] => .ok (String.ofList read.reverse :: done).reverse
  | .afterPoint, _, pos, [] => .error (.emptySegment path pos)
  | .bracket _, _, _, [] => .error (.unterminatedBracket path)
  | .closed, done, _, [] => .ok done.reverse
  | .start, done, pos, c :: cs =>
    if c = '.' ∨ c = '[' then .error (.emptySegment path pos)
    else scan path (.name [c]) done (pos + c.utf8Size) cs
  | .name read, done, pos, c :: cs =>
    if c = '.' then scan path .afterPoint (String.ofList read.reverse :: done) (pos + 1) cs
    else if c = '[' then scan path (.bracket []) (String.ofList read.reverse :: done) (pos + 1) cs
    else scan path (.name (c :: read)) done (pos + c.utf8Size) cs
  | .afterPoint, done, pos, c :: cs =>
    if c = '.' then .error (.emptySegment path pos)
    else if c = '[' then scan path (.bracket []) done (pos + 1) cs
    else scan path (.name [c]) done (pos + c.utf8Size) cs
  | .bracket read, done, pos, c :: cs =>
    if c = ']' then
      match closeBracket path read done with
      | .error e => .error e
      | .ok done => scan path .closed done (pos + 1) cs
    else scan path (.bracket (c :: read)) done (pos + c.utf8Size) cs
  | .closed, done, pos, c :: cs =>
    if c = '.' then scan path .afterPoint done (pos + 1) cs
    else if c = '[' then scan path (.bracket []) done (pos + 1) cs
    else .error (.emptySegment path pos)

/-- Reads a path from text; blanks around it do not count. -/
def parse (raw : String) : Except PathError FieldPath :=
  let cs := trimChars raw.toList
  if cs.isEmpty then .error .empty
  else (scan (String.ofList cs) .start [] 0 cs).map fun segments => ⟨segments⟩

example : (parse " a[0].b ").toOption = some ⟨["a", "0", "b"]⟩ ∧
    (parse "a.0.b").toOption = (parse "a['0'].b").toOption := by decide +kernel

example : (parse "a[0]b").toOption = none ∧ (parse "a..b").toOption = none := by decide +kernel

end LiveForm.FieldPath
