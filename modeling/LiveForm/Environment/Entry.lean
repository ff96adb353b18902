import LiveForm.Environment.Line
import LiveForm.Text.Letter
import LiveForm.Text.Natural

/-!
Entries of an environment file: `NAME=value`, with `export` in front or without. Values may hold
quotes, escapes and the values of other variables, `$NAME` or `$` with the name in braces; inside
single quotes everything stands for itself. Without braces a name goes on as long as letters and
digits of any script follow.
-/

set_option autoImplicit false

namespace LiveForm.Environment

open Text

/-- A part of a value. -/
inductive Piece where
  | char (c : Char)
  | variable (name : String)
  deriving DecidableEq, Repr

structure Entry where
  name : String
  value : List Piece
  deriving DecidableEq, Repr

/-- Where the reader stands in a value; `quoted` holds inside double quotes. Names are read last
character first. -/
inductive ValuePlace where
  | open (quoted : Bool)
  | escape (quoted : Bool)
  | single
  | name (quoted : Bool) (read : List Char)
  | braced (quoted : Bool) (read : List Char)
  | behind

def variableOf (read : List Char) : Piece := .variable (String.ofList read.reverse)

/-- What a character stands for behind a backslash. -/
def escaped? (c : Char) : Option Char :=
  if c = '\\' || c = '\'' || c = '"' || c = '$' || c = ' ' then some c
  else if c = 'n' then some '\n'
  else none

def isAsciiLetter (c : Char) : Bool := ('a' ≤ c && c ≤ 'z') || ('A' ≤ c && c ≤ 'Z')


/-- The place and the piece a character of a value leads to, `none` if it cannot stand there. -/
def openChar (quoted : Bool) (c : Char) : ValuePlace × Option Piece :=
  if c = '$' then (.name quoted [], none)
  else if c = '\\' then (.escape quoted, none)
  else if c = '"' then (.open !quoted, none)
  else if quoted then (.open quoted, some (.char c))
  else if c = '\'' then (.single, none)
  else if c = ' ' || c = '\t' then (.behind, none)
  else (.open quoted, some (.char c))

/-- Reads on from a place, up to a comment or the end. -/
def readValue : ValuePlace → List Char → Option (List Piece)
  | .open quoted, [] => if quoted then none else some []
  | .escape quoted, [] => if quoted then none else some []
  | .single, [] => none
  | .name quoted read, [] => if quoted then none else some [variableOf read]
  | .braced _ _, [] => none
  | .behind, [] => some []
  | .open quoted, c :: cs =>
    match openChar quoted c with
    | (place, some piece) => (readValue place cs).map (piece :: ·)
    | (place, none) => readValue place cs
  | .escape quoted, c :: cs =>
    match escaped? c with
    | some c => (readValue (.open quoted) cs).map (.char c :: ·)
    | none => none
  | .single, c :: cs =>
    if c = '\'' then readValue (.open false) cs else (readValue .single cs).map (.char c :: ·)
  | .name quoted read, c :: cs =>
    if isAlphanumeric c then readValue (.name quoted (c :: read)) cs
    else if c = '\x7b' && read.isEmpty then readValue (.braced quoted []) cs
    else if c = '$' then (readValue (.name quoted []) cs).map (variableOf read :: ·)
    else (readValue (.open quoted) cs).map fun rest => variableOf read :: .char c :: rest
  | .braced quoted read, c :: cs =>
    if c = '\x7d' then (readValue (.open quoted) cs).map (variableOf read :: ·)
    else readValue (.braced quoted (c :: read)) cs
  | .behind, c :: cs =>
    if c = ' ' || c = '\t' then readValue .behind cs
    else if c = '#' then some []
    else none

/-- The name at the front, with the rest. -/
def key? (cs : List Char) : Option (String × List Char) :=
  match cs with
  | c :: _ =>
    if isAsciiLetter c || c = '_' then
      let isKeyChar (c : Char) : Bool := isAsciiLetter c || isAsciiDigit c || c = '_' || c = '.'
      some (String.ofList (cs.takeWhile isKeyChar), cs.dropWhile isKeyChar)
    else none
  | [] => none

/-- The value behind the equals sign at the front. -/
def value? : List Char → Option (List Piece)
  | '=' :: cs =>
    let cs := trimStart cs
    if cs.isEmpty || cs.head? = some '#' then some [] else readValue (.open false) cs
  | _ => none

/-- The entry of a name and what follows it. -/
def entryOf? (name : String) (cs : List Char) : Option Entry :=
  (value? (trimStart cs)).map fun value => ⟨name, value⟩

/-- The entry on a logical line; `some none` stands for a line without one, `none` for a broken
line. -/
def entry? (line : List Char) : Option (Option Entry) :=
  let cs := trimChars line
  if cs.isEmpty || cs.head? = some '#' then some none
  else
    match key? cs with
    | none => none
    | some (name, rest) =>
      if name = "export" && (trimStart rest).head? ≠ some '=' then
        ((key? (trimStart rest)).bind fun (name, rest) => entryOf? name rest).map some
      else (entryOf? name rest).map some

/-- The entries up to the first broken line. -/
def entriesOf : List (Option (List Char)) → List Entry
  | some line :: rest =>
    match entry? line with
    | some (some e) => e :: entriesOf rest
    | some none => entriesOf rest
    | none => []
  | _ => []

/-- The entries of a file, which may begin with a byte order mark. -/
def entries (text : String) : List Entry :=
  match text.toList with
  | '\ufeff' :: cs => entriesOf (lines (String.ofList cs))
  | _ => entriesOf (lines text)

end LiveForm.Environment
