import LiveForm.Environment
import LiveForm.Json.Writer
import LiveForm.Script.Run

/-!
The command that replays the script in a file. Settings come from the environment, to which an
environment file may add.
-/

set_option autoImplicit false

namespace LiveForm

inductive CommandError where
  | usage
  | unreadable (path : String)
  | unparsable (path : String)
  | script (e : ScriptError)
  deriving DecidableEq, Repr

def CommandError.message : CommandError → String
  | .usage => "usage: autoform <script.json>"
  | .unreadable path => s!"Failed to read script {path}"
  | .unparsable path => s!"Failed to parse script {path}"
  | .script e => e.message

/-- A script named on the command line, with the text of the file if it can be read. -/
structure ScriptFile where
  path : String
  text : Option String

namespace CommandLine

/-- The names of the settings. -/
def settingNames : List String :=
  ["AUTOFORM_DEFAULT_WAIT_MS", "AUTOFORM_LOADER_DELAY_MS", "AUTOFORM_LOCALE"]

/-- The settings under an environment and an environment file, if there is one. -/
def settings (env : Environment) (envFile : Option String) : Settings :=
  Settings.ofEnvironment (envFile.elim env env.load).lookup

def run (env : Environment) (envFile : Option String) (file : Option ScriptFile) :
    Except CommandError ScriptReport :=
  match file with
  | none => .error .usage
  | some ⟨path, none⟩ => .error (.unreadable path)
  | some ⟨path, some text⟩ =>
    match Script.ofText? text with
    | none => .error (.unparsable path)
    | some s =>
      match s.run (settings env envFile) with
      | .ok report => .ok report
      | .error e => .error (.script e)

/-- The report as it is printed. -/
def reportText (r : ScriptReport) : String := (Wire.encode r).pretty 0

end CommandLine

end LiveForm
