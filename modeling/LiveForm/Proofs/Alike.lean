import LiveForm.Proofs.Flight

/-!
# Forms that differ only in what they know of a guard

A form learns two things from its guard: the id of the token it takes, and whether the guard blocks
as one of its calls starts. Neither has an influence on what it does.

* `Form.apart`: a form without what it knows of its guard;
* `Form.Alike`: two forms are the same but for that;
* `Scene.Alike.handle`: whatever message alike forms handle, they stay alike;
* `Scene.Alike.settle`: so they do when the loop has ended;
* `Moment.Alike.perform?`: a deed that one of them can do the other can do too.
-/

set_option autoImplicit false

namespace LiveForm

/-- An event without what it tells of a guard. -/
def Event.apart : Event → Event
  | .callStarted callee _ => .callStarted callee false
  | e => e

namespace Form

/-- A form without what it knows of its guard; it keeps that it holds a token. -/
def apart (f : Form) : Form :=
  { f with
    token := f.token.map fun _ => 0
    history := f.history.map Event.apart }

/-- The same but for what they know of their guards. -/
def Alike (f g : Form) : Prop := f.apart = g.apart

/-- Reads neither token nor history. -/
def Unread {α : Type} (read : Form → α) : Prop :=
  ∀ f token history, read { f with token, history } = read f

/-- Neither reads nor changes token and history. -/
def Untouched (change : Form → Form) : Prop :=
  ∀ f token history, change { f with token, history } = { change f with token, history }

variable {f g : Form}

theorem Unread.apart {α : Type} {read : Form → α} (unread : Unread read) (f : Form) :
    read f.apart = read f :=
  unread f _ _

theorem Untouched.apart {change : Form → Form} (untouched : Untouched change) (f : Form) :
    (change f).apart = change f.apart := by
  have own : change f = { change f with token := f.token, history := f.history } :=
    untouched f f.token f.history
  rw [own]
  exact (untouched f _ _).symm

theorem Alike.reads {α : Type} (h : f.Alike g) (read : Form → α) (unread : Unread read) :
    read f = read g := by
  rw [← unread.apart f, ← unread.apart g, h]

end Form

/-- The forms of two scenes are alike. -/
abbrev Scene.Alike (s t : Scene) : Prop := s.form.Alike t.form

/-- Two turns end in the same way, with scenes that are alike. -/
inductive Turn.Alike : Turn → Turn → Prop where
  | goesOn {s t : Scene} (h : s.Alike t) : Alike (.goesOn s) (.goesOn t)
  | falls {s t : Scene} (h : s.Alike t) : Alike (.falls s) (.falls t)

theorem Turn.Alike.andThen {a b : Turn} {act act' : Scene → Turn} (h : a.Alike b)
    (next : ∀ {s t : Scene}, s.Alike t → (act s).Alike (act' t)) :
    (a.andThen act).Alike (b.andThen act') := by
  cases h with
  | goesOn h => exact next h
  | falls h => exact .falls h

namespace Scene

variable {s t : Scene}

/-! ## Small acts -/

namespace Alike

theorem update (h : s.Alike t) (change : Form → Form) (untouched : Form.Untouched change) :
    (s.update change).Alike (t.update change) := by
  show (change s.form).apart = (change t.form).apart
  rw [untouched.apart, untouched.apart, h]

theorem log {e e' : Event} (h : s.Alike t) (same : e.apart = e'.apart) :
    (s.log e).Alike (t.log e') := by
  have heads (f : Form) (e : Event) : (f.log e).apart =
      { f.apart with history := e.apart :: f.apart.history } := rfl
  show (s.form.log e).apart = (t.form.log e').apart
  rw [heads, heads, h, same]

theorem answer (h : s.Alike t) (ticket : Ticket) (reply : Reply) :
    (s.answer ticket reply).Alike (t.answer ticket reply) := h.log rfl

theorem answerAll (h : s.Alike t) (tickets : List Ticket) (reply : Reply) :
    (s.answerAll tickets reply).Alike (t.answerAll tickets reply) := by
  unfold Scene.answerAll
  induction tickets generalizing s t with
  | nil => exact h
  | cons ticket rest ih => exact ih (h.answer ticket reply)

/-- Calls back, which may fail. -/
theorem call {change : Form → Form} (h : s.Alike t) (untouched : Form.Untouched change) (e : Event)
    (fails : Bool) :
    (if fails then Turn.falls ((s.update change).log e) else .goesOn ((s.update change).log e)).Alike
      (if fails then .falls ((t.update change).log e) else .goesOn ((t.update change).log e)) := by
  have told : ((s.update change).log e).Alike ((t.update change).log e) :=
    (h.update change untouched).log rfl
  split
  · exact .falls told
  · exact .goesOn told

theorem observe (h : s.Alike t) (shown : Snapshot) : (s.observe shown).Alike (t.observe shown) := by
  unfold Scene.observe
  rw [h.reads Form.observer fun _ _ _ => rfl]
  split
  · exact .goesOn h
  · exact h.call (fun _ _ _ => rfl) _ _

theorem publish (h : s.Alike t) (phase : FormPhase) :
    (s.publish phase).Alike (t.publish phase) := by
  unfold Scene.publish
  rw [h.reads (fun f => f.snapshot phase) fun _ _ _ => rfl,
    h.reads Form.published fun _ _ _ => rfl]
  dsimp only
  split
  · exact .goesOn h
  · exact (h.update _ fun _ _ _ => rfl).observe _

theorem publishCurrent (h : s.Alike t) : s.publishCurrent.Alike t.publishCurrent := by
  unfold Scene.publishCurrent
  rw [h.reads Form.phase fun _ _ _ => rfl]
  exact h.publish _

theorem notify (h : s.Alike t) (key : MessageKey) (detail : String) :
    (s.notify key detail).Alike (t.notify key detail) := by
  unfold Scene.notify
  rw [h.reads Form.notifier fun _ _ _ => rfl,
    h.reads Form.setup fun _ _ _ => rfl]
  exact h.call (fun _ _ _ => rfl) _ _

theorem reportInvalid (h : s.Alike t) (errors : FieldErrors) :
    (s.reportInvalid errors).Alike (t.reportInvalid errors) := by
  unfold Scene.reportInvalid
  rw [h.reads Form.onInvalid fun _ _ _ => rfl]
  split
  · exact .goesOn h
  · exact h.call (fun _ _ _ => rfl) _ _

theorem runHook (h : s.Alike t) (path : FieldPath) (value : Json) :
    (s.runHook path value).Alike (t.runHook path value) := by
  unfold Scene.runHook
  rw [h.reads Form.registry fun _ _ _ => rfl]
  split
  · exact h.log rfl
  · exact h

theorem putStore (h : s.Alike t) (store : Option Store) :
    (s.putStore store).Alike (t.putStore store) := by
  cases store with
  | none => exact .falls h
  | some store => exact .goesOn (h.update _ fun _ _ _ => rfl)

theorem noteChanged (h : s.Alike t) (path : FieldPath) :
    (s.noteChanged path).Alike (t.noteChanged path) := by
  refine h.update _ fun f token history => ?_
  dsimp only
  split <;> rfl

theorem cancelDebounce (h : s.Alike t) : s.cancelDebounce.Alike t.cancelDebounce :=
  h.update _ fun _ _ _ => rfl

theorem post (h : s.Alike t) (m : Message) :
    (s.update fun f => f.post m).Alike (t.update fun f => f.post m) := by
  refine h.update _ fun f token history => ?_
  dsimp only [Form.post]
  split <;> rfl

theorem requestSubmit (h : s.Alike t) (now : Nat) :
    (s.requestSubmit now).Alike (t.requestSubmit now) := by
  refine h.update _ fun f token history => ?_
  dsimp only [Form.post]
  split
  · split <;> rfl
  · rfl

theorem defer (h : s.Alike t) (trigger : Trigger) (waiters : List Ticket) :
    (s.defer trigger waiters).Alike (t.defer trigger waiters) := by
  refine h.update _ fun f token history => ?_
  dsimp only
  split <;> rfl

theorem acquireToken (h : s.Alike t) : s.acquireToken.Alike t.acquireToken := by
  show { s.form.apart with token := some 0 } = { t.form.apart with token := some 0 }
  rw [h]

theorem releaseToken (h : s.Alike t) : s.releaseToken.Alike t.releaseToken := by
  rw [Alike, releaseToken_form, releaseToken_form]
  show { s.form.apart with token := none } = { t.form.apart with token := none }
  rw [h]

theorem showLoader (h : s.Alike t) : s.showLoader.Alike t.showLoader :=
  h.update _ fun _ _ _ => rfl

theorem scheduleLoaderHide (h : s.Alike t) (now : Nat) :
    (s.scheduleLoaderHide now).Alike (t.scheduleLoaderHide now) := by
  refine h.update _ fun f token history => ?_
  dsimp only
  split <;> rfl

theorem close (h : s.Alike t) : s.close.Alike t.close :=
  h.releaseToken.update _ fun _ _ _ => rfl

/-! ## The handling of messages -/

theorem beginCycle (h : s.Alike t) (trigger : Trigger) (waiters : List Ticket) :
    (s.beginCycle trigger waiters).Alike (t.beginCycle trigger waiters) := by
  unfold Scene.beginCycle
  rw [h.reads (fun f => f.nextRun trigger) fun _ _ _ => rfl,
    h.reads (fun f => f.nextPending trigger waiters) fun _ _ _ => rfl]
  refine Turn.Alike.andThen ?_ fun h => .goesOn (h.update _ fun _ _ _ => rfl)
  exact ((h.acquireToken.update _ fun _ _ _ => rfl).showLoader.log rfl).publish _

theorem halt (h : s.Alike t) (trigger : Trigger) (waiters : List Ticket) (errors : FieldErrors) :
    (s.halt trigger waiters errors).Alike (t.halt trigger waiters errors) := by
  have halted := (h.update (fun f => { f with errors, isSubmitSuccessful := false })
    fun _ _ _ => rfl).log (rfl : (Event.halted trigger errors).apart = _)
  refine (halted.reportInvalid errors).andThen fun h => ?_
  exact ((h.answerAll waiters _).publish _).andThen publishCurrent

theorem startSubmission (h : s.Alike t) (trigger : Trigger) (waiters : List Ticket) :
    (s.startSubmission trigger waiters).Alike (t.startSubmission trigger waiters) := by
  unfold Scene.startSubmission
  rw [h.reads (fun f => f.registry.validate f.store.values) fun _ _ _ => rfl]
  dsimp only
  split
  · exact h.beginCycle trigger waiters
  · exact h.halt trigger waiters _

theorem handleFieldChanged (h : s.Alike t) (now : Nat) (path : FieldPath) (value : Json) :
    (s.handleFieldChanged now path value).Alike (t.handleFieldChanged now path value) := by
  have hooked := h.runHook path value
  unfold Scene.handleFieldChanged
  dsimp only
  rw [hooked.reads Form.store fun _ _ _ => rfl]
  refine (hooked.putStore _).andThen fun {s t} h => ?_
  have noted := h.noteChanged path
  rw [noted.reads Form.setup fun _ _ _ => rfl]
  split
  · exact (noted.requestSubmit now).publishCurrent
  · exact noted.publishCurrent

theorem handleSetValue (h : s.Alike t) (now : Nat) (path : FieldPath) (value : Json)
    (dirty : Option Bool) :
    (s.handleSetValue now path value dirty).Alike (t.handleSetValue now path value dirty) := by
  unfold Scene.handleSetValue
  dsimp only
  rw [h.reads Form.setup fun _ _ _ => rfl,
    h.reads (fun f => f.store.changes path value) fun _ _ _ => rfl]
  generalize dirty.getD t.form.setup.autoSubmit = dirty
  have noted : Alike (if dirty then s.noteChanged path else s)
      (if dirty then t.noteChanged path else t) := by
    split
    · exact h.noteChanged path
    · exact h
  rw [noted.reads Form.store fun _ _ _ => rfl]
  refine (noted.putStore _).andThen fun {s' t'} h' => ?_
  rw [h'.reads Form.setup fun _ _ _ => rfl]
  split
  · exact (h'.requestSubmit now).publishCurrent
  · exact h'.publishCurrent

theorem handleSubmit (h : s.Alike t) (ticket : Ticket) :
    (s.handleSubmit ticket).Alike (t.handleSubmit ticket) := by
  unfold Scene.handleSubmit
  rw [h.reads Form.pending fun _ _ _ => rfl]
  split
  · exact .goesOn (h.defer _ _)
  · exact h.cancelDebounce.startSubmission _ _

theorem handleReset (h : s.Alike t) (values : Option Json) :
    (s.handleReset values).Alike (t.handleReset values) :=
  (h.cancelDebounce.update _ fun _ _ _ => rfl).publishCurrent

/-- Answers with what is read from the form. -/
theorem answerRead (h : s.Alike t) (read : Form → Reply) (unread : Form.Unread read)
    (ticket : Ticket) : (Turn.goesOn (s.answer ticket (read s.form))).Alike
      (.goesOn (t.answer ticket (read t.form))) := by
  rw [h.reads read unread]
  exact .goesOn (h.answer ticket _)

theorem register (h : s.Alike t) (now : Nat) (ticket : Ticket) (path : FieldPath)
    (field : Field Listener Hook) : (s.handleRequest now ticket (.register path field)).Alike
      (t.handleRequest now ticket (.register path field)) := by
  simp only [Scene.handleRequest]
  rw [h.reads (fun f => f.registry.register path field f.store.baseline) fun _ _ _ => rfl]
  split
  · exact .goesOn ((h.update _ fun _ _ _ => rfl).answer _ _)
  · exact .goesOn (h.answer _ _)

theorem handleRequest (h : s.Alike t) (now : Nat) (ticket : Ticket) (request : Request) :
    (s.handleRequest now ticket request).Alike (t.handleRequest now ticket request) := by
  cases request with
  | register path field => exact h.register now ticket path field
  | unregister paths => exact .goesOn ((h.update _ fun _ _ _ => rfl).answer _ _)
  | setValue path value dirty =>
    exact (h.handleSetValue now path value dirty).andThen fun h => .goesOn (h.answer _ _)
  | getValue path =>
    exact h.answerRead (fun f => .value (f.store.get? path)) (fun _ _ _ => rfl) ticket
  | getValues => exact h.answerRead (fun f => .values f.store.values) (fun _ _ _ => rfl) ticket
  | getDirtyValues =>
    exact h.answerRead (fun f => .values f.store.dirtyValues) (fun _ _ _ => rfl) ticket
  | getState => exact h.answerRead (fun f => .state f.currentSnapshot) (fun _ _ _ => rfl) ticket
  | getSubmitButton =>
    exact h.answerRead (fun f => .button f.submitButton) (fun _ _ _ => rfl) ticket
  | submit => exact h.handleSubmit ticket
  | reset values => exact (h.handleReset values).andThen fun h => .goesOn (h.answer _ _)

theorem handleDebounceElapsed (h : s.Alike t) (generation : Nat) :
    (s.handleDebounceElapsed generation).Alike (t.handleDebounceElapsed generation) := by
  unfold Scene.handleDebounceElapsed
  rw [h.reads Form.debounce fun _ _ _ => rfl,
    h.reads Form.pending fun _ _ _ => rfl]
  split
  · split
    · exact (h.cancelDebounce.defer _ _).publishCurrent
    · exact h.cancelDebounce.startSubmission _ _
  · exact .goesOn h

theorem acknowledge (h : s.Alike t) (p : Pending) (changed : List FieldPath) :
    (s.acknowledge p changed).Alike (t.acknowledge p changed) := by
  unfold Scene.acknowledge
  rw [h.reads Form.store fun _ _ _ => rfl,
    h.reads (fun f => f.liveEdits changed) fun _ _ _ => rfl]
  refine (h.putStore _).andThen fun h => .goesOn ?_
  exact (h.update _ fun _ _ _ => rfl).answerAll _ _

theorem reject (h : s.Alike t) (p : Pending) (e : SubmitError) :
    (s.reject p e).Alike (t.reject p e) :=
  ((h.update _ fun _ _ _ => rfl).notify _ _).andThen fun h => .goesOn (h.answerAll _ _)

theorem handleSettled (h : s.Alike t) (now cycle : Nat) (failure : Option SubmitError) :
    (s.handleSettled now cycle failure).Alike (t.handleSettled now cycle failure) := by
  unfold Scene.handleSettled
  rw [h.reads Form.pending fun _ _ _ => rfl,
    h.reads Form.changedDuringSubmit fun _ _ _ => rfl]
  split
  · exact .goesOn h
  split
  · exact .goesOn h
  have landed := (h.update (fun f => { f with pending := none, changedDuringSubmit := [] })
    fun _ _ _ => rfl).log (rfl : (Event.settled cycle failure).apart = _)
  refine Turn.Alike.andThen ?_ fun h => ?_
  · cases failure with
    | none => exact landed.acknowledge _ _
    | some e => exact landed.reject _ e
  refine ((h.releaseToken.scheduleLoaderHide now).publish _).andThen fun h => ?_
  rw [h.reads Form.deferred fun _ _ _ => rfl]
  split
  · exact (h.update _ fun _ _ _ => rfl).startSubmission _ _
  · exact h.publishCurrent

theorem applyLoaded (h : s.Alike t) (values : Json) :
    (s.applyLoaded values).Alike (t.applyLoaded values) := by
  unfold Scene.applyLoaded
  rw [h.reads (fun f => f.liveEdits f.store.dirty.paths) fun _ _ _ => rfl]
  exact (h.putStore _).andThen fun h => .goesOn (h.update _ fun _ _ _ => rfl)

theorem handleLoaded (h : s.Alike t) (outcome : Except String Json) :
    (s.handleLoaded outcome).Alike (t.handleLoaded outcome) := by
  have loaded := h.update (fun f => { f with isLoading := false }) fun _ _ _ => rfl
  refine Turn.Alike.andThen ?_ publishCurrent
  cases outcome with
  | ok values => exact loaded.applyLoaded values
  | error message => exact loaded.notify _ message

theorem handleHideLoader (h : s.Alike t) (generation : Nat) :
    (s.handleHideLoader generation).Alike (t.handleHideLoader generation) := by
  unfold Scene.handleHideLoader
  rw [h.reads Form.loader fun _ _ _ => rfl,
    h.reads Form.pending fun _ _ _ => rfl]
  split
  · exact (h.update _ fun _ _ _ => rfl).publishCurrent
  · exact .goesOn h

theorem handle (h : s.Alike t) (now : Nat) (m : Message) :
    (s.handle now m).Alike (t.handle now m) := by
  cases m with
  | ask ticket request => exact h.handleRequest now ticket request
  | fieldChanged path value => exact h.handleFieldChanged now path value
  | debounceElapsed generation => exact h.handleDebounceElapsed generation
  | settled cycle failure => exact h.handleSettled now cycle failure
  | loaded outcome => exact h.handleLoaded outcome
  | hideLoader generation => exact h.handleHideLoader generation

end Alike

/-! ## What happens next -/

/-- In both scenes the same can happen next, or in neither. -/
abbrev NextAlike : Option Scene → Option Scene → Prop := Option.Rel Alike

theorem nextAlike_map {α : Type} (x : Option α) {f g : α → Scene} (h : ∀ a, (f a).Alike (g a)) :
    NextAlike (x.map f) (x.map g) := by
  cases x with
  | none => exact .none
  | some a => exact .some (h a)

namespace Alike

theorem land {a b : Turn} (h : a.Alike b) : a.land.Alike b.land := by
  cases h with
  | goesOn h => exact h
  | falls h => exact h.close

theorem handleNext? (h : s.Alike t) (now : Nat) :
    NextAlike (s.handleNext? now) (t.handleNext? now) := by
  unfold Scene.handleNext?
  rw [h.reads Form.mailbox fun _ _ _ => rfl]
  split
  · exact .none
  · exact .some (land ((h.update _ fun _ _ _ => rfl).handle now _))

theorem startCall? (h : s.Alike t) (now run call : Nat) :
    NextAlike (s.startCall? now run call) (t.startCall? now run call) := by
  unfold Scene.startCall?
  rw [h.reads (fun f => f.call? run call) fun _ _ _ => rfl]
  exact nextAlike_map _ fun c => (h.update _ fun _ _ _ => rfl).log rfl

theorem endCallAt? (h : s.Alike t) (now run call : Nat) :
    NextAlike (s.endCallAt? now run call) (t.endCallAt? now run call) := by
  unfold Scene.endCallAt?
  rw [h.reads (fun f => f.call? run call) fun _ _ _ => rfl]
  exact nextAlike_map _ fun c => (h.update _ fun _ _ _ => rfl).log rfl

theorem finishRunAt? (h : s.Alike t) (run : Nat) :
    NextAlike (s.finishRunAt? run) (t.finishRunAt? run) := by
  unfold Scene.finishRunAt?
  rw [h.reads (fun f => f.runs[run]?) fun _ _ _ => rfl]
  exact nextAlike_map _ fun r =>
    (h.update (fun f => { f with runs := f.runs.eraseIdx run }) fun _ _ _ => rfl).post _

theorem fireDebounce? (h : s.Alike t) (now : Nat) :
    NextAlike (s.fireDebounce? now) (t.fireDebounce? now) := by
  unfold Scene.fireDebounce?
  rw [h.reads Form.debounce fun _ _ _ => rfl]
  exact nextAlike_map _ fun timer =>
    (h.update (fun f => { f with debounce := { f.debounce with timer := none } })
      fun _ _ _ => rfl).post _

theorem fireHide? (h : s.Alike t) (now : Nat) :
    NextAlike (s.fireHide? now) (t.fireHide? now) := by
  unfold Scene.fireHide?
  rw [h.reads Form.loader fun _ _ _ => rfl]
  exact nextAlike_map _ fun timer =>
    (h.update (fun f => { f with loader := { f.loader with hideTimer := none } })
      fun _ _ _ => rfl).post _

theorem finishLoad? (h : s.Alike t) (now : Nat) :
    NextAlike (s.finishLoad? now) (t.finishLoad? now) := by
  unfold Scene.finishLoad?
  rw [h.reads Form.load fun _ _ _ => rfl]
  refine nextAlike_map _ fun l => ?_
  have ended := h.update (fun f => { f with load := none }) fun _ _ _ => rfl
  cases message : loadMessage? l.outcome with
  | some m => exact ended.post m
  | none => exact ended

end Alike

/-! ## The loop -/

theorem NextAlike.orElse {x x' y y' : Option Scene} (first : NextAlike x y)
    (other : NextAlike x' y') : NextAlike (x <|> x') (y <|> y') := by
  cases first with
  | none => exact other
  | some h => exact .some h

namespace Alike

theorem startCalls (h : s.Alike t) (calls : List Call) :
    (calls.foldl (fun s c => s.log (.callStarted c.callee s.guard.isBlocking)) s).Alike
      (calls.foldl (fun s c => s.log (.callStarted c.callee s.guard.isBlocking)) t) := by
  induction calls generalizing s t with
  | nil => exact h
  | cons c rest ih => exact ih (h.log rfl)

theorem startRun? (h : s.Alike t) (now : Nat) :
    NextAlike (s.startRun? now) (t.startRun? now) := by
  unfold Scene.startRun?
  rw [h.reads (fun f => Form.startFirst? now f.runs) fun _ _ _ => rfl]
  exact nextAlike_map _ fun (run, runs) =>
    (h.update (fun f => { f with runs }) fun _ _ _ => rfl).startCalls run.calls

theorem endCall? (h : s.Alike t) (now : Nat) : NextAlike (s.endCall? now) (t.endCall? now) := by
  unfold Scene.endCall?
  rw [h.reads (fun f => Form.endFirst? now f.runs) fun _ _ _ => rfl]
  exact nextAlike_map _ fun (_, runs) =>
    (h.update (fun f => { f with runs }) fun _ _ _ => rfl).log rfl

theorem finishRun? (h : s.Alike t) : NextAlike s.finishRun? t.finishRun? := by
  unfold Scene.finishRun?
  rw [h.reads (fun f => Form.finishFirst? f.runs) fun _ _ _ => rfl]
  exact nextAlike_map _ fun (_, runs) =>
    (h.update (fun f => { f with runs }) fun _ _ _ => rfl).post _

theorem tick? (h : s.Alike t) (now : Nat) : NextAlike (s.tick? now) (t.tick? now) := by
  unfold Scene.tick?
  rw [h.reads Form.stopRequested fun _ _ _ => rfl]
  split
  · exact .some h.close
  · exact (h.handleNext? now).orElse ((h.startRun? now).orElse ((h.endCall? now).orElse
      (h.finishRun?.orElse ((h.fireDebounce? now).orElse ((h.fireHide? now).orElse
        (h.finishLoad? now))))))

theorem settleWithin (h : s.Alike t) (n now : Nat) :
    (s.settleWithin n now).Alike (t.settleWithin n now) := by
  induction n generalizing s t with
  | zero => exact h
  | succ n ih =>
    have next := h.tick? now
    rw [Scene.settleWithin, Scene.settleWithin]
    generalize s.tick? now = x at next ⊢
    generalize t.tick? now = y at next ⊢
    cases next with
    | none => exact h
    | some alike => exact ih alike

/-- Forms that are alike do the same at one instant. -/
theorem settle (h : s.Alike t) (now : Nat) : (s.settle now).Alike (t.settle now) := by
  rw [Scene.settle, Scene.settle, h.reads (fun f => f.work now) fun _ _ _ => rfl]
  exact h.settleWithin _ now

end Alike

end Scene

/-! ## Deeds -/

/-- The forms of two moments are alike at the same time. The second has given out no more
tickets. -/
structure Moment.Alike (a b : Moment) : Prop where
  now : a.now = b.now
  scene : a.scene.Alike b.scene
  tickets : b.nextTicket ≤ a.nextTicket

namespace Moment.Alike

variable {a a' b : Moment}

theorem goesOn (h : a.Alike b) {x y : Option Scene} (next : Scene.NextAlike x y)
    (done : (x.map fun scene => { a with scene }) = some a') :
    ∃ b', (y.map fun scene => { b with scene }) = some b' ∧ a'.Alike b' := by
  cases next with
  | none => cases done
  | some alike =>
    cases done
    exact ⟨_, rfl, h.now, alike, h.tickets⟩

/-- What one form can do, a form that is alike can do at the same time, and they stay alike. -/
theorem perform? (h : a.Alike b) {d : Deed} (done : a.perform? d = some a') :
    ∃ b', b.perform? d = some b' ∧ a'.Alike b' := by
  obtain ⟨now, scene, tickets⟩ := h
  cases d with
  | pass ms =>
    cases done
    exact ⟨_, rfl, congrArg (· + ms) now, scene, tickets⟩
  | ask ticket request =>
    obtain ⟨fresh, same⟩ := Option.ite_none_right_eq_some.mp done
    cases same
    exact ⟨_, if_pos (Nat.le_trans tickets fresh), now, scene.post _, Nat.le_refl _⟩
  | change path value =>
    cases done
    exact ⟨_, rfl, now, scene.post _, tickets⟩
  | stop =>
    cases done
    exact ⟨_, rfl, now, scene.update _ fun _ _ _ => rfl, tickets⟩
  | share guard =>
    cases done
    exact ⟨_, rfl, now, scene, tickets⟩
  | close =>
    obtain ⟨asked, same⟩ := Option.ite_none_right_eq_some.mp done
    cases same
    have asked' := (scene.reads Form.stopRequested fun _ _ _ => rfl).symm.trans asked
    exact ⟨_, if_pos asked', now, scene.close, tickets⟩
  | straggle notice =>
    obtain ⟨off, same⟩ := Option.ite_none_right_eq_some.mp done
    cases same
    have off' := (scene.reads (fun f => f.hasCalledOff notice) fun _ _ _ => by
      cases notice <;> rfl).symm.trans off
    exact ⟨_, if_pos off', now, scene.post _, tickets⟩
  | handle => exact goesOn ⟨now, scene, tickets⟩ (now ▸ scene.handleNext? a.now) done
  | startCall run call =>
    exact goesOn ⟨now, scene, tickets⟩ (now ▸ scene.startCall? a.now run call) done
  | endCall run call =>
    exact goesOn ⟨now, scene, tickets⟩ (now ▸ scene.endCallAt? a.now run call) done
  | finishRun run => exact goesOn ⟨now, scene, tickets⟩ (scene.finishRunAt? run) done
  | fireDebounce => exact goesOn ⟨now, scene, tickets⟩ (now ▸ scene.fireDebounce? a.now) done
  | fireHide => exact goesOn ⟨now, scene, tickets⟩ (now ▸ scene.fireHide? a.now) done
  | finishLoad => exact goesOn ⟨now, scene, tickets⟩ (now ▸ scene.finishLoad? a.now) done

end Moment.Alike

end LiveForm
