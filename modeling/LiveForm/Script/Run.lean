import LiveForm.FieldPath.Parser
import LiveForm.Script.Basic
import LiveForm.World

/-!
Replaying a script on a form of its own, whose handler accepts every submission, or none if the
script says so. Writes of a script count as edits; a submit step waits until its submission has
settled. At the end the form has some time to come to rest.
-/

set_option autoImplicit false

namespace LiveForm

inductive ScriptError where
  | form (e : FormError)
  | unsettled
  deriving DecidableEq, Repr

def ScriptError.message : ScriptError → String
  | .form e => e.message
  | .unsettled => "Form did not settle"

namespace Script

/-- The place of the one form. -/
def place : Nat := 0

/-- How long a form may take to come to rest, in milliseconds. -/
def settleTimeout : Nat := 30000

def answer (s : Script) : Answer :=
  if s.failSubmit then .fails (.rejected "echo handler configured to fail") else .accepts

def formConfig (s : Script) (settings : Settings) : FormConfig :=
  { FormConfig.ofSettings settings with
    defaults := .given s.defaults
    autoSubmit := s.autoSubmit.toConfig
    handler := some [⟨s.latency.toNat, s.answer⟩] }

def hasReply (ticket : Ticket) (f : Form) : Bool := (f.reply? ticket).isSome

def isIdle (f : Form) : Bool := f.published.phase = .idle

/-- Sends a request and waits for its reply. -/
def ask (w : World) (ticket : Ticket) (request : Request) : Except ScriptError World :=
  if (w.forms[place]?).any Form.alive then
    let sent := (w.act place fun s => s.update fun f => f.post (.ask ticket request)).settle
    match sent.wait place (hasReply ticket) none with
    | (w, .reached) => .ok w
    | _ => .error (.form (.unreachable .unanswered))
  else .error (.form (.unreachable .gone))

/-- One step, under a ticket of its own. -/
def step (w : World) (ticket : Ticket) : ScriptStep → Except ScriptError World
  | .set text value =>
    match FieldPath.parse text with
    | .ok path => ask w ticket (.setValue path value (some true))
    | .error e => .error (.form (.invalidPath e))
  | .sleep ms => .ok (w.advance ms.toNat)
  | .submit => ask w ticket .submit

def runSteps (w : World) (ticket : Ticket) : List ScriptStep → Except ScriptError World
  | [] => .ok w
  | s :: rest =>
    match step w ticket s with
    | .ok w => runSteps w (ticket + 1) rest
    | .error e => .error e

/-- What the handler of a form was given, for the calls that have ended, oldest first. -/
def received (f : Form) : List SubmitData :=
  f.history.reverse.filterMap fun
    | .callEnded (.handler data) => some data
    | _ => none

def reportOn (s : Script) (f : Form) : ScriptReport where
  state := f.currentSnapshot
  values := f.store.values
  submissions := if s.failSubmit then [] else (received f).map SubmitData.dirtyValues

/-- Waits for the form to come to rest, and reports on it. -/
def finish (s : Script) (w : World) : Except ScriptError ScriptReport :=
  match w.wait place isIdle (some settleTimeout) with
  | (w, .reached) =>
    match w.forms[place]?.filter Form.alive with
    | some f => .ok (s.reportOn f)
    | none => .error (.form (.unreachable .gone))
  | (_, .timeout) => .error .unsettled
  | (_, .closed) => .error (.form (.unreachable .closed))

def run (s : Script) (settings : Settings) : Except ScriptError ScriptReport :=
  match runSteps (World.empty.spawn (s.formConfig settings)).settle 0 s.steps with
  | .ok w => s.finish w
  | .error e => .error e

end Script

end LiveForm
