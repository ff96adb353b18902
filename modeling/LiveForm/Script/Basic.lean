import LiveForm.Json.Reader
import LiveForm.Wire.Form

/-!
Scripts of edits. A script names the values a form starts from, how it submits, and what is done to
it step by step.
-/

set_option autoImplicit false

namespace LiveForm

inductive ScriptStep where
  | set (path : String) (value : Json)
  | sleep (ms : UInt64)
  | submit
  deriving Repr

/-- Submissions take `latency` milliseconds, and fail if they are told to. -/
structure Script where
  defaults : Json
  autoSubmit : AutoSubmit
  failSubmit : Bool
  latency : UInt64
  steps : List ScriptStep
  deriving Repr

/-- What a form has come to at the end of a script, with what was submitted on the way. -/
structure ScriptReport where
  state : Snapshot
  values : Json
  submissions : List Json
  deriving Repr

namespace Wire

/-- The path and the value of a write: an object, or from a text also a list. -/
def writeSlots? (m : Medium) (j : Json) : Option (List Slot) :=
  match m with
  | .tree => memberSlots? ["path", "value"] j
  | .text => slots? ["path", "value"] j

instance : Wire ScriptStep where
  encode
    | .set path value =>
      record [("set", record [("path", encode path), ("value", value)])]
    | .sleep ms => record [("sleep_ms", encode ms)]
    | .submit => .str "submit"
  decode? m
    | .obj [("set", body)] =>
      match writeSlots? m body with
      | some [path, value] => do return .set (← path.read m) (← value.read m)
      | _ => none
    | .obj [("sleep_ms", ms)] => do return .sleep (← decode? m ms)
    | j => if unitName? j = some "submit" then some .submit else none

/-- All fields have defaults: no values, no submissions by itself, no latency, no steps. -/
instance : Wire Script where
  encode s := record [
    ("defaults", s.defaults),
    ("auto_submit", encode s.autoSubmit),
    ("fail_submit", encode s.failSubmit),
    ("latency_ms", encode s.latency),
    ("steps", encode s.steps)]
  decode? m j :=
    match slots? ["defaults", "auto_submit", "fail_submit", "latency_ms", "steps"] j with
    | some [defaults, autoSubmit, failSubmit, latency, steps] => do
      return {
        defaults := ← defaults.readOr m .emptyObject
        autoSubmit := ← autoSubmit.readOr m (.toggle false)
        failSubmit := ← failSubmit.readOr m false
        latency := ← latency.readOr m 0
        steps := ← steps.readOr m [] }
    | _ => none

instance : Wire ScriptReport where
  encode r := record [
    ("state", encode r.state), ("values", r.values), ("submissions", encode r.submissions)]
  decode? m j :=
    match slots? ["state", "values", "submissions"] j with
    | some [state, values, submissions] => do
      return ⟨← state.read m, ← values.read m, ← submissions.read m⟩
    | _ => none

end Wire

namespace ScriptStep

/-- What the text of a step is read for. -/
def shape : Json.Shape :=
  .record [("set", .record [("path", .any), ("value", .any)]), ("sleep_ms", .any), ("submit", .any)]

end ScriptStep

namespace Script

/-- What the text of a script is read for; members it does not know are skimmed over. -/
def shape : Json.Shape :=
  .record [("defaults", .any), ("auto_submit", .any), ("fail_submit", .any), ("latency_ms", .any),
    ("steps", .list ScriptStep.shape)]

/-- Reads a script from the text of a file. -/
def ofText? (text : String) : Option Script :=
  (Json.readDocument shape text).toOption.bind fun j => Wire.decode? .text j

end Script

end LiveForm
