import LiveForm.Text.Blank

/-!
The logical lines of an environment file. Quotes and backslashes carry a line over its end, and a
`#` behind a single blank starts a comment. A text that ends inside quotes or behind a blank ends
in a broken line.
-/

set_option autoImplicit false

namespace LiveForm.Environment

open Text

/-- Where the reader stands in a logical line. -/
inductive LinePlace where
  | plain
  | escape
  | single
  | singleEscape
  | double
  | doubleEscape
  | blank
  deriving DecidableEq, Repr

/-- The place behind one more character. -/
def LinePlace.next (place : LinePlace) (c : Char) : LinePlace :=
  match place with
  | .escape => .plain
  | .singleEscape => .single
  | .doubleEscape => .double
  | .single => if c = '\\' then .singleEscape else if c = '\'' then .plain else .single
  | .double => if c = '\\' then .doubleEscape else if c = '"' then .plain else .double
  | .plain =>
    if isBlank c && c ≠ '\n' && c ≠ '\r' then .blank
    else if c = '\\' then .escape
    else if c = '"' then .double
    else if c = '\'' then .single
    else .plain
  | .blank =>
    if c = '\\' then .escape
    else if c = '"' then .double
    else if c = '\'' then .single
    else .plain

/-- Reads a physical line on from a place. The result is the place at its end, or `none` at a
comment, with the characters before that. -/
def scanLine : LinePlace → List Char → Option LinePlace × List Char
  | place, [] => (some place, [])
  | place, c :: cs =>
    if place = .blank && c = '#' then (none, [])
    else
      let (stop, kept) := scanLine (place.next c) cs
      (stop, c :: kept)

/-- The text cut behind every line feed. -/
def physicalLines : List Char → List (List Char)
  | [] => []
  | '\n' :: cs => ['\n'] :: physicalLines cs
  | c :: cs =>
    match physicalLines cs with
    | [] => [[c]]
    | line :: rest =>
      (c :: line) :: rest

/-- Takes one line end off. -/
def dropLineEnd (cs : List Char) : List Char :=
  match cs.reverse with
  | '\n' :: '\r' :: rest => rest.reverse
  | '\n' :: rest => rest.reverse
  | _ => cs

/-- The logical lines; `read` is what has been read of the first one. A broken line is `none`, and
the last. -/
def logicalLines (place : LinePlace) (read : List Char) :
    List (List Char) → List (Option (List Char))
  | [] => if place = .plain then [] else [none]
  | line :: rest =>
    let whole := read ++ line
    if (trimStart whole).head? = some '#' then some [] :: logicalLines .plain [] rest
    else
      match scanLine place line with
      | (none, kept) => some (read ++ kept) :: logicalLines .plain [] rest
      | (some .plain, _) => some (dropLineEnd whole) :: logicalLines .plain [] rest
      | (some place, _) => logicalLines place whole rest

def lines (text : String) : List (Option (List Char)) :=
  logicalLines .plain [] (physicalLines text.toList)

end LiveForm.Environment
