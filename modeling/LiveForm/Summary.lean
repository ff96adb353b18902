import LiveForm.FormConfig

/-!
One-line summaries of options and configurations, for logs.
-/

set_option autoImplicit false

namespace LiveForm.Summary

def flag (b : Bool) : String := if b then "true" else "false"

/-- A name with its fields between braces; `more` holds if not all fields are shown. -/
def record (name : String) (fields : List (String × String)) (more : Bool) : String :=
  let shown := fields.map fun f => f.1 ++ ": " ++ f.2
  name ++ " \x7b " ++ ", ".intercalate (if more then shown ++ [".."] else shown) ++ " \x7d"

def sequence (items : List String) : String := "[" ++ ", ".intercalate items ++ "]"

def optional : Option String → String
  | some s => s!"Some({s})"
  | none => "None"

/-- Thousandths behind a point, without trailing zeros. -/
def thousandths (n : Nat) : List Char :=
  let digits := (Nat.toDigits 10 (1000 + n)).drop 1
  (digits.reverse.dropWhile (· = '0')).reverse

/-- A time in milliseconds: `0ns`, `750ms`, `2s`, `1.5s`. -/
def duration (ms : Nat) : String :=
  if ms = 0 then "0ns"
  else if ms < 1000 then s!"{ms}ms"
  else if ms % 1000 = 0 then s!"{ms / 1000}s"
  else s!"{ms / 1000}.{String.ofList (thousandths (ms % 1000))}s"

mutual

/-- A value with the kinds of its parts. -/
def value : Json → String
  | .null => "Null"
  | .bool b => s!"Bool({flag b})"
  | .int n => s!"Number({n})"
  | .float x => s!"Number({x.pointedText})"
  | .str s => s!"String({Json.quoted s})"
  | .arr xs => "Array " ++ sequence (values xs)
  | .obj ms => "Object \x7b" ++ ", ".intercalate (members ms) ++ "\x7d"

def values : List Json → List String
  | [] => []
  | x :: xs => value x :: values xs

def members : List (String × Json) → List String
  | [] => []
  | (k, v) :: ms => (Json.quoted k ++ ": " ++ value v) :: members ms

end

def defaults : Defaults → String
  | .given v => s!"Static({value v})"
  | .loaded _ _ => "Async(..)"

def autoSubmit (c : AutoSubmitConfig) : String :=
  record "AutoSubmitConfig"
    [("enable", flag c.enable), ("wait", optional (c.wait.map fun w => toString w.toNat))] false

def config (c : FormConfig) : String :=
  record "FormConfig"
    [("default_values", defaults c.defaults), ("auto_submit", autoSubmit c.autoSubmit),
     ("on_submit", flag c.handler.isSome), ("hide_submit_button", flag c.hideSubmitButton),
     ("disable_loader", flag c.disableLoader), ("loader_delay", duration c.loaderDelay)] true

/-- What a field brings when it registers: whether it has a listener, its rules, whether it has a
hook. -/
def registration (listens : Bool) (rules : List Rule) (hooked : Bool) : String :=
  record "RegisterOptions"
    [("on_auto_submit", flag listens), ("rules", sequence (rules.map Rule.summary)),
     ("on_change", flag hooked)] false

example : duration 1500 = "1.5s" ∧ duration 2000 = "2s" ∧ duration 750 = "750ms" := by
  decide +kernel

end LiveForm.Summary
