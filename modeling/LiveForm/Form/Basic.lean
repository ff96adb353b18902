import LiveForm.FormConfig
import LiveForm.FormError
import LiveForm.Registry
import LiveForm.Snapshot
import LiveForm.Store

/-!
A live form: its values, the fields registered with it, the submission in flight, the one put off
until that has settled, and the mailbox through which everything reaches it.

A submission in flight is a run of calls. Timers, loads and runs never touch the form; when they
are done they put a message into its mailbox. The form remembers all that has happened in its
history, the newest event first.
-/

set_option autoImplicit false

namespace LiveForm

/-- The number under which the sender of a request awaits the reply. -/
abbrev Ticket := Nat

/-- What can be asked of a form. -/
inductive Request where
  | register (path : FieldPath) (field : Field Listener Hook)
  | unregister (paths : Option (List FieldPath))
  | setValue (path : FieldPath) (value : Json) (dirty : Option Bool)
  | getValue (path : FieldPath)
  | getValues
  | getDirtyValues
  | getState
  | getSubmitButton
  | submit
  | reset (values : Option Json)

/-- What a form handles, one after another: requests, changes made in a field, and notices of its
own timers, runs and loads. -/
inductive Message where
  | ask (ticket : Ticket) (request : Request)
  | fieldChanged (path : FieldPath) (value : Json)
  | debounceElapsed (generation : Nat)
  | settled (cycle : Nat) (failure : Option SubmitError)
  | loaded (outcome : Except String Json)
  | hideLoader (generation : Nat)

inductive Reply where
  | done
  | refused (e : FormError)
  | value (v : Option Json)
  | values (v : Json)
  | state (s : Snapshot)
  | button (b : SubmitButton)
  | outcome (o : SubmitOutcome)

/-- Who is called, with what. -/
inductive Callee where
  | handler (data : SubmitData)
  | listener (label : String) (value : Json)

inductive CallState where
  | waiting
  | running (due : Nat)
  | ended
  deriving DecidableEq, Repr

structure Call where
  callee : Callee
  response : Response
  state : CallState

/-- The calls of one submission. They start together, each runs to its end, and the first failure
in their order counts. -/
structure Run where
  cycle : Nat
  calls : List Call

/-- An alarm, with the count of alarms of its kind that were set before. -/
structure Timer where
  due : Nat
  generation : Nat
  deriving DecidableEq, Repr

/-- The wait between an edit and the submission it asks for. Each edit sets it anew. -/
structure Debounce where
  generation : Nat
  armed : Bool
  timer : Option Timer
  deriving DecidableEq, Repr

/-- The sign that a submission is under way. It stays for a while afterwards. -/
structure Loader where
  visible : Bool
  generation : Nat
  hideTimer : Option Timer
  deriving DecidableEq, Repr

/-- The submission in flight, with the values it has been started with. One that was overtaken by a
reset is `superseded`: its values no longer count. -/
structure Pending where
  cycle : Nat
  values : Json
  dirtyValues : Json
  hadDirty : Bool
  superseded : Bool
  trigger : Trigger
  waiters : List Ticket

/-- The submission to start once the one in flight has settled. -/
structure Deferred where
  trigger : Trigger
  waiters : List Ticket
  deriving DecidableEq, Repr

/-- Default values on their way. -/
structure Load where
  due : Nat
  outcome : LoadOutcome

inductive Event where
  | published (s : Snapshot)
  | began (cycle : Nat) (trigger : Trigger)
  | settled (cycle : Nat) (failure : Option SubmitError)
  | halted (trigger : Trigger) (errors : FieldErrors)
  | invalidReported (errors : FieldErrors)
  | callStarted (callee : Callee) (guardBlocking : Bool)
  | callEnded (callee : Callee)
  | hooked (path : FieldPath) (value : Json)
  | notified (message detail : String)
  | answered (ticket : Ticket) (reply : Reply)

/-- The newest reply to a request in a history. -/
def Event.reply? (ticket : Ticket) : List Event → Option Reply
  | [] => none
  | .answered t reply :: rest => if t = ticket then some reply else reply? ticket rest
  | _ :: rest => reply? ticket rest

/-- What stays the same as long as a form lives. -/
structure FormSetup where
  autoSubmit : Bool
  wait : Option Nat
  hideSubmitButton : Bool
  submitButtonText : Option String
  disableLoader : Bool
  loaderDelay : Nat
  catalog : Catalog
  guardName : String

structure Form where
  setup : FormSetup
  handler : Option Handler
  onInvalid : Option Callback
  observer : Option Callback
  notifier : Callback
  store : Store
  registry : Registry Listener Hook
  debounce : Debounce
  pending : Option Pending
  deferred : Option Deferred
  /-- The id of the guard token held for the submission in flight. -/
  token : Option Nat
  /-- The paths edited since the submission in flight began, in the order of their first edit. -/
  changedDuringSubmit : List FieldPath
  errors : FieldErrors
  isSubmitSuccessful : Bool
  cycles : Nat
  lastCycle : Option Nat
  isLoading : Bool
  loader : Loader
  /-- The snapshot published last. -/
  published : Snapshot
  alive : Bool
  stopRequested : Bool
  mailbox : List Message
  runs : List Run
  load : Option Load
  history : List Event

/-- Submissions of a form are numbered from one, and named by their number. -/
def submissionId (cycle : Nat) : String := s!"S{cycle}"

namespace Form

def phase (f : Form) : FormPhase :=
  if f.pending.isSome then .submitting
  else if f.debounce.armed then .scheduled
  else .idle

/-- The state as observers see it, under a given phase. -/
def snapshot (f : Form) (phase : FormPhase) : Snapshot where
  phase
  isDirty := f.store.isDirty
  isSubmitting := f.pending.isSome
  isSubmitSuccessful := f.isSubmitSuccessful
  isLoading := f.isLoading
  showLoader := f.loader.visible && !f.setup.disableLoader
  submitCount := UInt32.ofNat f.cycles
  dirtyPaths := f.store.dirty.paths.map FieldPath.display
  errors := f.errors
  lastSubmissionId := f.lastCycle.map submissionId

def currentSnapshot (f : Form) : Snapshot := f.snapshot f.phase

/-- A form that submits on its own shows no button. -/
def submitButton (f : Form) : SubmitButton where
  visible := !f.setup.hideSubmitButton && !f.setup.autoSubmit
  enabled := f.store.isDirty && f.pending.isNone
  label := f.setup.submitButtonText.getD (f.setup.catalog.message .save)

/-- A form at time `now`, before it has shown anything. -/
def make (c : FormConfig) (now : Nat) : Form where
  setup :=
    { autoSubmit := c.autoSubmit.enable
      wait := c.effectiveWait
      hideSubmitButton := c.hideSubmitButton
      submitButtonText := c.submitButtonText
      disableLoader := c.disableLoader
      loaderDelay := c.loaderDelay
      catalog := c.catalog
      guardName := c.guardName }
  handler := c.handler.map fun plan => ⟨plan, 0⟩
  onInvalid := c.onInvalid
  observer := c.observer
  notifier := c.notifier
  store :=
    match c.defaults with
    | .given v => .new v
    | .loaded _ _ => .new .emptyObject
  registry := .empty
  debounce := ⟨0, false, none⟩
  pending := none
  deferred := none
  token := none
  changedDuringSubmit := []
  errors := []
  isSubmitSuccessful := false
  cycles := 0
  lastCycle := none
  isLoading :=
    match c.defaults with
    | .given _ => false
    | .loaded _ _ => true
  loader := ⟨false, 0, none⟩
  published := .blank
  alive := true
  stopRequested := false
  mailbox := []
  runs := []
  load :=
    match c.defaults with
    | .given _ => none
    | .loaded latency outcome => some ⟨now + latency, outcome⟩
  history := []

/-- Puts a message into the mailbox. A form that has ended takes none. -/
def post (f : Form) (m : Message) : Form :=
  if f.alive then { f with mailbox := f.mailbox ++ [m] } else f

def log (f : Form) (e : Event) : Form := { f with history := e :: f.history }

def reply? (f : Form) (ticket : Ticket) : Option Reply := Event.reply? ticket f.history

end Form

end LiveForm
