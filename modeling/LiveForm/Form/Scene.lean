import LiveForm.Form.Basic
import LiveForm.UnloadGuard

/-!
A form beside the guard it shares with other forms, and the small acts from which the handling of
messages is made. An act that calls a callback of the host may fail; the form then falls, and
nothing after that act happens.
-/

set_option autoImplicit false

namespace LiveForm

structure Scene where
  form : Form
  guard : UnloadGuard

/-- How an act ends. -/
inductive Turn where
  | goesOn (s : Scene)
  | falls (s : Scene)

/-- Goes on with a further act, unless the form has fallen. -/
def Turn.andThen (t : Turn) (act : Scene → Turn) : Turn :=
  match t with
  | .goesOn s => act s
  | .falls s => .falls s

namespace Scene

def update (s : Scene) (change : Form → Form) : Scene := { s with form := change s.form }

def log (s : Scene) (e : Event) : Scene := s.update fun f => f.log e

def answer (s : Scene) (ticket : Ticket) (reply : Reply) : Scene := s.log (.answered ticket reply)

/-- Gives the same reply to all who wait for it, in their order. -/
def answerAll (s : Scene) (tickets : List Ticket) (reply : Reply) : Scene :=
  tickets.foldl (fun s ticket => s.answer ticket reply) s

/-- Shows a snapshot to the observer, if there is one. -/
def observe (s : Scene) (shown : Snapshot) : Turn :=
  match s.form.observer with
  | none => .goesOn s
  | some callback =>
    let s' := (s.update fun f => { f with observer := some callback.called }).log (.published shown)
    if callback.failsNext then .falls s' else .goesOn s'

/-- Publishes the state under a given phase, if it differs from what was published last. -/
def publish (s : Scene) (phase : FormPhase) : Turn :=
  let shown := s.form.snapshot phase
  if shown = s.form.published then .goesOn s
  else (s.update fun f => { f with published := shown }).observe shown

def publishCurrent (s : Scene) : Turn := s.publish s.form.phase

/-- Notifies the user of an error. -/
def notify (s : Scene) (key : MessageKey) (detail : String) : Turn :=
  let callback := s.form.notifier
  let s' := (s.update fun f => { f with notifier := callback.called }).log
    (.notified (s.form.setup.catalog.message key) detail)
  if callback.failsNext then .falls s' else .goesOn s'

/-- Tells the host why a submission was stopped before it began, if the host wants to know. -/
def reportInvalid (s : Scene) (errors : FieldErrors) : Turn :=
  match s.form.onInvalid with
  | none => .goesOn s
  | some callback =>
    let s' := (s.update fun f => { f with onInvalid := some callback.called }).log
      (.invalidReported errors)
    if callback.failsNext then .falls s' else .goesOn s'

/-- Shows a change to the hook of its field. -/
def runHook (s : Scene) (path : FieldPath) (value : Json) : Scene :=
  match s.form.registry.hook? path with
  | some _ => s.log (.hooked path value)
  | none => s

/-- Takes a store; where a write asked for an impossible list there is none. -/
def putStore (s : Scene) (store : Option Store) : Turn :=
  match store with
  | some store => .goesOn (s.update fun f => { f with store })
  | none => .falls s

/-- Remembers an edit made while a submission is in flight. -/
def noteChanged (s : Scene) (path : FieldPath) : Scene :=
  s.update fun f =>
    if f.pending.isSome && !f.changedDuringSubmit.contains path then
      { f with changedDuringSubmit := f.changedDuringSubmit ++ [path] }
    else f

def cancelDebounce (s : Scene) : Scene :=
  s.update fun f => { f with debounce := { f.debounce with armed := false, timer := none } }

/-- Asks for a submission after the wait, which starts anew; without a wait, after the messages
that are in the mailbox. -/
def requestSubmit (s : Scene) (now : Nat) : Scene :=
  s.update fun f =>
    let generation := f.debounce.generation + 1
    match f.setup.wait with
    | none =>
      { f with debounce := ⟨generation, true, none⟩ }.post (.debounceElapsed generation)
    | some wait => { f with debounce := ⟨generation, true, some ⟨now + wait, generation⟩⟩ }

/-- Puts a submission off until the one in flight has settled. Those put off become one, which is
manual if one of them is. -/
def defer (s : Scene) (trigger : Trigger) (waiters : List Ticket) : Scene :=
  s.update fun f =>
    match f.deferred with
    | none => { f with deferred := some ⟨trigger, waiters⟩ }
    | some d =>
      { f with
        deferred :=
          some ⟨if trigger = .manual then .manual else d.trigger, d.waiters ++ waiters⟩ }

def acquireToken (s : Scene) : Scene where
  form := { s.form with token := some s.guard.nextId }
  guard := s.guard.acquire (s.form.setup.catalog.message .submitInProgress)

def releaseToken (s : Scene) : Scene :=
  match s.form.token with
  | some id => ⟨{ s.form with token := none }, s.guard.release id⟩
  | none => s

def showLoader (s : Scene) : Scene :=
  s.update fun f => { f with loader := ⟨true, f.loader.generation + 1, none⟩ }

/-- Hides the loader after the delay, or at once if there is none. -/
def scheduleLoaderHide (s : Scene) (now : Nat) : Scene :=
  s.update fun f =>
    if f.setup.loaderDelay = 0 then { f with loader := { f.loader with visible := false } }
    else
      { f with
        loader :=
          { f.loader with hideTimer := some ⟨now + f.setup.loaderDelay, f.loader.generation⟩ } }

/-- The end of a form. Its token goes back and what it was to do is dropped; calls that run go on
by themselves. -/
def close (s : Scene) : Scene :=
  s.releaseToken.update fun f =>
    { f with
      alive := false
      stopRequested := false
      mailbox := []
      debounce := { f.debounce with armed := false, timer := none }
      loader := { f.loader with hideTimer := none }
      pending := none
      deferred := none
      changedDuringSubmit := []
      load := none }

end Scene

/-- The scene after a turn: a form that has fallen ends. -/
def Turn.land : Turn → Scene
  | .goesOn s => s
  | .falls s => s.close

end LiveForm
