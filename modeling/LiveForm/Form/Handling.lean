import LiveForm.Form.Scene

/-!
What a form does with each message. It handles one at a time, and between two of them its state
is published.
-/

set_option autoImplicit false

namespace LiveForm

namespace Form

/-- Holds of fields whose listener takes part in a submission: they have a value, and an edit
concerns them. -/
def concerns (f : Form) (path : FieldPath) : Bool :=
  f.setup.autoSubmit && f.store.dirty.touches path && f.store.values.has path

/-- The call of the listener of one field. -/
def listenerCall? (f : Form) (path : FieldPath) (listener : Listener) : Option Call :=
  if f.concerns path then
    (f.store.values.get? path).map fun v =>
      ⟨.listener listener.label v, listener.response, .waiting⟩
  else none

def listenerCalls (f : Form) : List Call :=
  f.registry.listeners.filterMap fun (path, listener) => f.listenerCall? path listener

/-- What the handler is given in the next cycle. -/
def submitData (f : Form) (trigger : Trigger) : SubmitData where
  submissionId := submissionId (f.cycles + 1)
  values := f.store.values
  dirtyValues := f.store.dirtyValues
  trigger

def handlerCall (f : Form) (trigger : Trigger) : List Call :=
  match f.handler with
  | some h => [⟨.handler (f.submitData trigger), h.response, .waiting⟩]
  | none => []

/-- The run of the next cycle: the listeners concerned in the order of their paths, then the
handler. -/
def nextRun (f : Form) (trigger : Trigger) : Run where
  cycle := f.cycles + 1
  calls := f.listenerCalls ++ f.handlerCall trigger

/-- Counts the calls of the next run. -/
def countCalls (f : Form) : Form :=
  { f with
    handler := f.handler.map Handler.called
    registry := ⟨f.registry.fields.map fun (path, field) =>
      (path, if f.concerns path then { field with listener := field.listener.map Listener.called }
        else field)⟩ }

def nextPending (f : Form) (trigger : Trigger) (waiters : List Ticket) : Pending where
  cycle := f.cycles + 1
  values := f.store.values
  dirtyValues := f.store.dirtyValues
  hadDirty := f.store.isDirty
  superseded := false
  trigger
  waiters

/-- The live values of the paths edited since the submission in flight began. -/
def liveEdits (f : Form) (changed : List FieldPath) : List (FieldPath × Json) :=
  changed.filterMap fun path => (f.store.values.get? path).map fun v => (path, v)

end Form

namespace Scene

/-- Begins a submission. -/
def beginCycle (s : Scene) (trigger : Trigger) (waiters : List Ticket) : Turn :=
  let run := s.form.nextRun trigger
  let pending := s.form.nextPending trigger waiters
  let s := s.acquireToken.update fun f =>
    { f.countCalls with
      pending := some pending
      errors := []
      isSubmitSuccessful := false
      cycles := f.cycles + 1
      lastCycle := some (f.cycles + 1) }
  ((s.showLoader.log (.began run.cycle trigger)).publish .submitting).andThen fun s =>
    .goesOn (s.update fun f => { f with runs := f.runs ++ [run] })

/-- Stops a submission that has invalid fields. -/
def halt (s : Scene) (trigger : Trigger) (waiters : List Ticket) (errors : FieldErrors) : Turn :=
  let s := (s.update fun f => { f with errors, isSubmitSuccessful := false }).log
    (.halted trigger errors)
  (s.reportInvalid errors).andThen fun s =>
    ((s.answerAll waiters (.outcome (.invalid errors))).publish .settledError).andThen publishCurrent

/-- Begins a submission if all fields are valid. -/
def startSubmission (s : Scene) (trigger : Trigger) (waiters : List Ticket) : Turn :=
  let errors := s.form.registry.validate s.form.store.values
  if errors.isEmpty then s.beginCycle trigger waiters else s.halt trigger waiters errors

/-- An edit in a field. -/
def handleFieldChanged (s : Scene) (now : Nat) (path : FieldPath) (value : Json) : Turn :=
  let s := s.runHook path value
  (s.putStore (s.form.store.set? path value true)).andThen fun s =>
    let s := s.noteChanged path
    (if s.form.setup.autoSubmit then s.requestSubmit now else s).publishCurrent

/-- A write from outside. It counts as an edit if asked to; if nothing is said, then in forms that
submit on their own. Only a write that changes something asks for a submission. -/
def handleSetValue (s : Scene) (now : Nat) (path : FieldPath) (value : Json)
    (dirty : Option Bool) : Turn :=
  let dirty := dirty.getD s.form.setup.autoSubmit
  let changes := s.form.store.changes path value
  let s := if dirty then s.noteChanged path else s
  (s.putStore (s.form.store.set? path value dirty)).andThen fun s =>
    (if s.form.setup.autoSubmit && dirty && changes then s.requestSubmit now else s).publishCurrent

def handleSubmit (s : Scene) (ticket : Ticket) : Turn :=
  if s.form.pending.isSome then .goesOn (s.defer .manual [ticket])
  else s.cancelDebounce.startSubmission .manual [ticket]

/-- Takes values as the new baseline, or goes back to the one there is. -/
def handleReset (s : Scene) (values : Option Json) : Turn :=
  publishCurrent <| s.cancelDebounce.update fun f =>
    { f with
      pending := f.pending.map fun p => { p with superseded := true }
      store := .reset (values.getD f.store.baseline)
      errors := []
      changedDuringSubmit := [] }

def handleRequest (s : Scene) (now : Nat) (ticket : Ticket) : Request → Turn
  | .register path field =>
    match s.form.registry.register path field s.form.store.baseline with
    | .ok registry => .goesOn ((s.update fun f => { f with registry }).answer ticket .done)
    | .error e => .goesOn (s.answer ticket (.refused e))
  | .unregister paths =>
    let keep (r : Registry Listener Hook) : Registry Listener Hook :=
      match paths with
      | some paths => r.unregister paths
      | none => .empty
    .goesOn ((s.update fun f => { f with registry := keep f.registry }).answer ticket .done)
  | .setValue path value dirty =>
    (s.handleSetValue now path value dirty).andThen fun s => .goesOn (s.answer ticket .done)
  | .getValue path => .goesOn (s.answer ticket (.value (s.form.store.get? path)))
  | .getValues => .goesOn (s.answer ticket (.values s.form.store.values))
  | .getDirtyValues => .goesOn (s.answer ticket (.values s.form.store.dirtyValues))
  | .getState => .goesOn (s.answer ticket (.state s.form.currentSnapshot))
  | .getSubmitButton => .goesOn (s.answer ticket (.button s.form.submitButton))
  | .submit => s.handleSubmit ticket
  | .reset values => (s.handleReset values).andThen fun s => .goesOn (s.answer ticket .done)

/-- The wait after an edit is over. The notice of a wait that has been set anew or called off does
not count. -/
def handleDebounceElapsed (s : Scene) (generation : Nat) : Turn :=
  if generation = s.form.debounce.generation && s.form.debounce.armed then
    if s.form.pending.isSome then (s.cancelDebounce.defer .auto []).publishCurrent
    else s.cancelDebounce.startSubmission .auto []
  else .goesOn s

/-- Success. What was submitted becomes the baseline, with the edits made since on top, unless the
form was reset meanwhile or there was nothing to save. -/
def acknowledge (s : Scene) (p : Pending) (changed : List FieldPath) : Turn :=
  let store :=
    if p.superseded || !p.hadDirty then some s.form.store
    else Store.commit? p.values (s.form.liveEdits changed)
  (s.putStore store).andThen fun s =>
    .goesOn ((s.update fun f => { f with isSubmitSuccessful := true }).answerAll p.waiters
      (.outcome (.submitted (submissionId p.cycle) p.dirtyValues)))

/-- Failure. Nothing of the values changes, so the edits are still there to be submitted again. -/
def reject (s : Scene) (p : Pending) (e : SubmitError) : Turn :=
  ((s.update fun f => { f with isSubmitSuccessful := false }).notify .submitError
    e.message).andThen fun s =>
      .goesOn (s.answerAll p.waiters (.outcome (.rejected (submissionId p.cycle) e.message)))

/-- The submission in flight has settled, with the failure if there is one. The one put off, if
any, is next. -/
def handleSettled (s : Scene) (now cycle : Nat) (failure : Option SubmitError) : Turn :=
  match s.form.pending with
  | none => .goesOn s
  | some p =>
    if p.cycle ≠ cycle then .goesOn s
    else
      let changed := s.form.changedDuringSubmit
      let s := (s.update fun f => { f with pending := none, changedDuringSubmit := [] }).log
        (.settled cycle failure)
      let answered :=
        match failure with
        | none => s.acknowledge p changed
        | some e => s.reject p e
      answered.andThen fun s =>
        ((s.releaseToken.scheduleLoaderHide now).publish
          (if failure.isNone then .settledOk else .settledError)).andThen fun s =>
            match s.form.deferred with
            | some d =>
              (s.update fun f => { f with deferred := none }).startSubmission d.trigger d.waiters
            | none => s.publishCurrent

/-- Takes loaded values as the baseline with the edits made since on top. Fields that the values
do not know are dropped. -/
def applyLoaded (s : Scene) (values : Json) : Turn :=
  (s.putStore (Store.commit? values (s.form.liveEdits s.form.store.dirty.paths))).andThen fun s =>
    .goesOn (s.update fun f =>
      { f with registry := f.registry.retainFitting f.store.baseline })

def handleLoaded (s : Scene) (outcome : Except String Json) : Turn :=
  let s := s.update fun f => { f with isLoading := false }
  let taken :=
    match outcome with
    | .ok values => s.applyLoaded values
    | .error message => s.notify .loadError message
  taken.andThen publishCurrent

def handleHideLoader (s : Scene) (generation : Nat) : Turn :=
  if generation = s.form.loader.generation && s.form.pending.isNone then
    (s.update fun f =>
      { f with loader := { f.loader with visible := false, hideTimer := none } }).publishCurrent
  else .goesOn s

def handle (s : Scene) (now : Nat) : Message → Turn
  | .ask ticket request => s.handleRequest now ticket request
  | .fieldChanged path value => s.handleFieldChanged now path value
  | .debounceElapsed generation => s.handleDebounceElapsed generation
  | .settled cycle failure => s.handleSettled now cycle failure
  | .loaded outcome => s.handleLoaded outcome
  | .hideLoader generation => s.handleHideLoader generation

end Scene

end LiveForm
