import LiveForm.CommandLine

/-!
The command line: prints the report of a script, or the reason why there is none.
-/

set_option autoImplicit false

namespace LiveForm.CommandLine

/-- A folder and all folders it lies in, the innermost first. -/
def foldersUp : List String → List String
  | [] => ["/"]
  | part :: rest => ("/" ++ "/".intercalate (part :: rest).reverse) :: foldersUp rest

/-- The folders in which an environment file is looked for: the current one, if there is one, and all
it lies in. -/
def searchedFolders : IO (List String) := do
  try
    let here := (← IO.currentDir).toString
    return foldersUp ((here.splitOn "/").filter fun part => !part.isEmpty).reverse
  catch _ => return []

/-- Holds if a path leads somewhere, whether or not what is there can be read. -/
def isThere (path : String) : IO Bool := do
  try
    discard (IO.FS.realPath path)
    return true
  catch _ => return false

/-- The text of a file, `none` if it cannot be read. -/
def readFile? (path : String) : IO (Option String) := do
  try
    return some (← IO.FS.readFile path)
  catch _ => return none

/-- The text of the first environment file in these folders. If that one cannot be read, no other
takes its place. -/
def findEnvFile : List String → IO (Option String)
  | [] => return none
  | folder :: rest => do
    let path := folder ++ "/.env"
    if ← isThere path then readFile? path else findEnvFile rest

/-- What the process environment has under some names. -/
def readEnvironment : List String → IO Environment
  | [] => return []
  | name :: rest => do
    let env ← readEnvironment rest
    match ← IO.getEnv name with
    | some value => return Assoc.insert name value env
    | none => return env

end LiveForm.CommandLine

open LiveForm CommandLine in
def main (args : List String) : IO UInt32 := do
  let envFile ← findEnvFile (← searchedFolders)
  let env ← readEnvironment (settingNames ++ envFile.elim [] Environment.namesIn)
  let file ← args.head?.mapM fun path => do return ⟨path, ← readFile? path⟩
  match run env envFile file with
  | .ok report =>
    IO.println (reportText report)
    return 0
  | .error e =>
    IO.eprintln ("Error: " ++ e.message)
    return 1
