import LiveForm.Json.Basic
import LiveForm.Number.Shortest

/-!
Writing JSON: on one line without spaces, or spread over lines with two spaces of indentation.
-/

set_option autoImplicit false

namespace LiveForm.Json

def hexDigit (n : Nat) : Char := (Nat.toDigits 16 n).getLastD '0'

/-- A character inside quotes: only quotes, backslashes and control characters are escaped. -/
def escaped (c : Char) : List Char :=
  if c = '"' then ['\\', '"']
  else if c = '\\' then ['\\', '\\']
  else if c = '\n' then ['\\', 'n']
  else if c = '\r' then ['\\', 'r']
  else if c = '\t' then ['\\', 't']
  else if c = '\x08' then ['\\', 'b']
  else if c = '\x0c' then ['\\', 'f']
  else if c.toNat < 32 then ['\\', 'u', '0', '0', hexDigit (c.toNat / 16), hexDigit (c.toNat % 16)]
  else [c]

def quoted (s : String) : String :=
  String.ofList ('"' :: (s.toList.flatMap escaped ++ ['"']))

/-- The text of a value that is neither list nor object. -/
def scalarText : Json → String
  | .null => "null"
  | .bool true => "true"
  | .bool false => "false"
  | .int n => toString n
  | .float x => x.pointedText
  | .str s => quoted s
  | _ => ""

mutual

/-- One line, no spaces. -/
def compact : Json → String
  | .arr xs => "[" ++ ",".intercalate (compactItems xs) ++ "]"
  | .obj ms => "\x7b" ++ ",".intercalate (compactMembers ms) ++ "\x7d"
  | v => scalarText v

def compactItems : List Json → List String
  | [] => []
  | x :: xs => compact x :: compactItems xs

def compactMembers : List (String × Json) → List String
  | [] => []
  | (k, v) :: ms => (quoted k ++ ":" ++ compact v) :: compactMembers ms

end

def indent (n : Nat) : String := String.ofList (List.replicate (2 * n) ' ')

/-- Entries on lines of their own between brackets; nothing between them if there are none. -/
def block (opening closing : String) (level : Nat) (entries : List String) : String :=
  if entries.isEmpty then opening ++ closing
  else
    opening ++ "\n" ++ ",\n".intercalate (entries.map (indent (level + 1) ++ ·)) ++ "\n" ++
      indent level ++ closing

mutual

/-- One entry a line, indented by two spaces a level. -/
def pretty (level : Nat) : Json → String
  | .arr xs => block "[" "]" level (prettyItems (level + 1) xs)
  | .obj ms => block "\x7b" "\x7d" level (prettyMembers (level + 1) ms)
  | v => scalarText v

def prettyItems (level : Nat) : List Json → List String
  | [] => []
  | x :: xs => pretty level x :: prettyItems level xs

def prettyMembers (level : Nat) : List (String × Json) → List String
  | [] => []
  | (k, v) :: ms => (quoted k ++ ": " ++ pretty level v) :: prettyMembers level ms

end

end LiveForm.Json
