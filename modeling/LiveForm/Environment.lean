import LiveForm.Assoc
import LiveForm.Environment.Entry

/-!
Environments, and how a file adds to one: what is already defined stays, and so does the first of
several entries of one name.
-/

set_option autoImplicit false

namespace LiveForm

/-- Values by name. -/
abbrev Environment := List (String × String)

namespace Environment

def lookup (env : Environment) (name : String) : Option String := Assoc.find? name env

/-- A value with the variables in it replaced; unknown ones are empty. -/
def expand (env : Environment) (value : List Piece) : String :=
  String.join (value.map fun
    | .char c => c.toString
    | .variable name => (env.lookup name).getD "")

def define (env : Environment) (e : Entry) : Environment :=
  if Assoc.contains e.name env then env else Assoc.insert e.name (env.expand e.value) env

/-- Adds the entries of a file, up to its first broken line. -/
def load (env : Environment) (text : String) : Environment := (entries text).foldl define env

/-- The names that matter to a file: those it defines and those it uses. -/
def namesIn (text : String) : List String :=
  (entries text).flatMap fun e => e.name :: e.value.filterMap fun
    | .char _ => none
    | .variable name => some name

example : load [("A", "1")] "A=2\nexport B = \"$\x7bA\x7d\\n\" # done\nC='$A'\nbroken\nD=4" =
    [("A", "1"), ("B", "1\n"), ("C", "$A")] := by decide +kernel

end Environment

end LiveForm
