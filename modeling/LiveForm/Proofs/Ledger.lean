import LiveForm.Proofs.Flight

/-!
# What a form has told its host

A form tells its host of failures in two ways. The notifier hears of submissions that have failed and
of default values that could not be loaded; the host that wants to know hears of invalid fields that
have stopped a submission.

* `Form.ledger`: what has been told so far, the last one first, beside the submissions that failed
  and whether the form still loads;
* `Attempt`, `Scene.attempt?`: the submission that a message tries to begin, with the scene it is
  tried in;
* `Scene.handle_ledger`: a message adds its failure, and the stop of its attempt, and no more.
-/

set_option autoImplicit false

namespace LiveForm

/-- What the notifier is to hear of. -/
inductive Failure where
  | submission (cycle : Nat) (e : SubmitError)
  | load (message : String)

namespace Failure

def submission? : Failure → Option (Nat × SubmitError)
  | .submission cycle e => some (cycle, e)
  | .load _ => none

def load? : Failure → Option String
  | .submission _ _ => none
  | .load message => some message

/-- The message for the user, and the detail beside it. -/
def notice (catalog : Catalog) : Failure → String × String
  | .submission _ e => (catalog.message .submitError, e.message)
  | .load message => (catalog.message .loadError, message)

end Failure

/-- What a load has brought. -/
def Message.result? : Message → Option (Except String Json)
  | .loaded result => some result
  | _ => none

namespace Event

def notice? : Event → Option (String × String)
  | .notified message detail => some (message, detail)
  | _ => none

def complaint? : Event → Option FieldErrors
  | .invalidReported errors => some errors
  | _ => none

def failure? : Event → Option (Nat × SubmitError)
  | .settled cycle (some e) => some (cycle, e)
  | _ => none

end Event

structure Ledger where
  catalog : Catalog
  /-- The host wants to know of invalid fields. -/
  listens : Bool
  loading : Bool
  load : Option Load
  notices : List (String × String)
  complaints : List FieldErrors
  failed : List (Nat × SubmitError)

namespace Form

/-- The calls of the notifier, the last one first. -/
def notices (f : Form) : List (String × String) := f.history.filterMap Event.notice?

/-- What the host has been told of invalid fields, the last one first. -/
def complaints (f : Form) : List FieldErrors := f.history.filterMap Event.complaint?

/-- The submissions that have failed, the last one first. -/
def failedCycles (f : Form) : List (Nat × SubmitError) := f.history.filterMap Event.failure?

def ledger (f : Form) : Ledger where
  catalog := f.setup.catalog
  listens := f.onInvalid.isSome
  loading := f.isLoading
  load := f.load
  notices := f.notices
  complaints := f.complaints
  failed := f.failedCycles

/-- The failure that a message brings. An end that is not that of the submission in flight brings
none. -/
def failure? (f : Form) : Message → Option Failure
  | .settled cycle (some e) =>
    if f.pending.any fun p => p.cycle = cycle then some (.submission cycle e) else none
  | .loaded (.error message) => some (.load message)
  | _ => none

end Form

namespace Ledger

def notify (l : Ledger) (key : MessageKey) (detail : String) : Ledger :=
  { l with notices := (l.catalog.message key, detail) :: l.notices }

def complain (l : Ledger) (errors : FieldErrors) : Ledger :=
  if l.listens then { l with complaints := errors :: l.complaints } else l

/-- Adds a failure. -/
def fail (l : Ledger) (failure : Option Failure) : Ledger :=
  { l with
    notices := (failure.map (Failure.notice l.catalog)).toList ++ l.notices
    failed := (failure.bind Failure.submission?).toList ++ l.failed }

/-- Adds what has stopped an attempt. -/
def stop (l : Ledger) (errors : Option FieldErrors) : Ledger :=
  { l with complaints := (if l.listens then errors.toList else []) ++ l.complaints }

@[simp] theorem fail_none (l : Ledger) : l.fail none = l := rfl

@[simp] theorem stop_none (l : Ledger) : l.stop none = l := by
  unfold stop
  split <;> rfl

theorem stop_some (l : Ledger) (errors : FieldErrors) :
    l.stop (some errors) = l.complain errors := by
  unfold stop complain
  split <;> rfl

end Ledger

/-! ## Acts -/

/-- A turn tells nothing of failures, however it ends. -/
def Turn.Silent (t : Turn) (s : Scene) : Prop := t.scene.form.ledger = s.form.ledger

namespace Turn

variable {t : Turn} {s s' : Scene} {act : Scene → Turn} {l : Ledger}

/-- A further act that tells nothing. -/
theorem ledger_andThen (h : t.scene.form.ledger = l) (next : ∀ s', (act s').Silent s') :
    (t.andThen act).scene.form.ledger = l := by
  cases t with
  | goesOn s' => exact (next s').trans h
  | falls => exact h

theorem Silent.andThen (h : t.Silent s) (next : ∀ s', (act s').Silent s') :
    (t.andThen act).Silent s :=
  ledger_andThen h next

theorem Silent.since (h : t.Silent s') (same : s'.form.ledger = s.form.ledger) : t.Silent s :=
  Eq.trans h same

end Turn

namespace Scene

variable (s : Scene) (now : Nat)

theorem observe_silent (shown : Snapshot) : (s.observe shown).Silent s := by
  unfold observe Turn.Silent
  split
  · rfl
  · dsimp only
    split <;> rfl

theorem publish_silent (phase : FormPhase) : (s.publish phase).Silent s := by
  unfold publish
  dsimp only
  split
  · rfl
  · exact (observe_silent _ _).since rfl

theorem publishCurrent_silent : s.publishCurrent.Silent s := s.publish_silent _

theorem notify_ledger (key : MessageKey) (detail : String) :
    (s.notify key detail).scene.form.ledger = s.form.ledger.notify key detail := by
  unfold notify
  dsimp only
  split <;> rfl

theorem reportInvalid_ledger (errors : FieldErrors) :
    (s.reportInvalid errors).scene.form.ledger = s.form.ledger.complain errors := by
  unfold reportInvalid
  split
  · rename_i none
    simp [Turn.scene, Ledger.complain, Form.ledger, none]
  · rename_i callback set
    dsimp only
    have complained : s.form.ledger.complain errors =
        { s.form.ledger with listens := true, complaints := errors :: s.form.complaints } := by
      simp [Ledger.complain, Form.ledger, set]
    rw [complained]
    split <;> rfl

theorem answerAll_ledger (tickets : List Ticket) (reply : Reply) :
    (s.answerAll tickets reply).form.ledger = s.form.ledger := by
  unfold answerAll
  induction tickets generalizing s with
  | nil => rfl
  | cons t rest ih => exact ih (s.answer t reply)

theorem runHook_ledger (path : FieldPath) (value : Json) :
    (s.runHook path value).form.ledger = s.form.ledger := by
  unfold runHook
  split <;> rfl

theorem putStore_silent (store : Option Store) : (s.putStore store).Silent s := by
  unfold putStore
  split <;> rfl

theorem noteChanged_ledger (path : FieldPath) :
    (s.noteChanged path).form.ledger = s.form.ledger := by
  unfold noteChanged update
  dsimp only
  split <;> rfl

theorem post_ledger (f : Form) (m : Message) : (f.post m).ledger = f.ledger := by
  unfold Form.post
  split <;> rfl

theorem requestSubmit_ledger : (s.requestSubmit now).form.ledger = s.form.ledger := by
  unfold requestSubmit update
  dsimp only
  split
  · exact post_ledger _ _
  · rfl

theorem defer_ledger (trigger : Trigger) (waiters : List Ticket) :
    (s.defer trigger waiters).form.ledger = s.form.ledger := by
  unfold defer update
  dsimp only
  split <;> rfl

theorem releaseToken_ledger : s.releaseToken.form.ledger = s.form.ledger := by
  rw [releaseToken_form]
  rfl

theorem scheduleLoaderHide_ledger : (s.scheduleLoaderHide now).form.ledger = s.form.ledger := by
  unfold scheduleLoaderHide update
  dsimp only
  split <;> rfl

theorem beginCycle_silent (trigger : Trigger) (waiters : List Ticket) :
    (s.beginCycle trigger waiters).Silent s := by
  rw [beginCycle_eq]
  exact Turn.Silent.andThen ((publish_silent _ _).since rfl) fun s' => rfl

theorem halt_ledger (trigger : Trigger) (waiters : List Ticket) (errors : FieldErrors) :
    (s.halt trigger waiters errors).scene.form.ledger = s.form.ledger.complain errors := by
  unfold halt
  refine Turn.ledger_andThen (reportInvalid_ledger _ errors) fun s' => ?_
  exact Turn.Silent.andThen ((publish_silent _ _).since (answerAll_ledger _ _ _))
    publishCurrent_silent

theorem acknowledge_silent (p : Pending) (changed : List FieldPath) :
    (s.acknowledge p changed).Silent s := by
  unfold acknowledge
  exact Turn.Silent.andThen (putStore_silent _ _) fun s' => answerAll_ledger _ _ _

theorem reject_ledger (p : Pending) (e : SubmitError) :
    (s.reject p e).scene.form.ledger = s.form.ledger.notify .submitError e.message := by
  unfold reject
  exact Turn.ledger_andThen (notify_ledger _ _ _) fun s' => answerAll_ledger _ _ _

theorem handleFieldChanged_silent (path : FieldPath) (value : Json) :
    (s.handleFieldChanged now path value).Silent s := by
  unfold handleFieldChanged
  refine Turn.Silent.andThen ((putStore_silent _ _).since (runHook_ledger s path value)) ?_
  intro s'
  refine (publishCurrent_silent _).since ?_
  split
  · rw [requestSubmit_ledger, noteChanged_ledger]
  · exact noteChanged_ledger _ _

theorem handleSetValue_silent (path : FieldPath) (value : Json) (dirty : Option Bool) :
    (s.handleSetValue now path value dirty).Silent s := by
  unfold handleSetValue
  refine Turn.Silent.andThen ((putStore_silent _ _).since ?_) ?_
  · split
    · exact noteChanged_ledger _ _
    · rfl
  · intro s'
    refine (publishCurrent_silent _).since ?_
    split
    · exact requestSubmit_ledger _ _
    · rfl

theorem handleReset_silent (values : Option Json) : (s.handleReset values).Silent s :=
  (publishCurrent_silent _).since rfl

theorem handleRequest_silent (ticket : Ticket) {request : Request} (other : request ≠ .submit) :
    (s.handleRequest now ticket request).Silent s := by
  cases request with
  | register path field =>
    unfold handleRequest
    dsimp only
    split <;> rfl
  | setValue path value dirty =>
    exact Turn.Silent.andThen (s.handleSetValue_silent now path value dirty) fun s' => rfl
  | reset values => exact Turn.Silent.andThen (s.handleReset_silent values) fun s' => rfl
  | submit => exact absurd rfl other
  | _ => rfl

/-- What is loaded ends the loading, and an error is told. -/
theorem handleLoaded_ledger (outcome : Except String Json) :
    (s.handleLoaded outcome).scene.form.ledger =
      { s.form.ledger with loading := false }.fail (s.form.failure? (.loaded outcome)) := by
  unfold handleLoaded
  refine Turn.ledger_andThen ?_ publishCurrent_silent
  cases outcome with
  | ok values => exact Turn.ledger_andThen (putStore_silent _ _) fun s' => rfl
  | error message => exact notify_ledger (s.update fun f => { f with isLoading := false }) _ _

theorem handleHideLoader_silent (generation : Nat) : (s.handleHideLoader generation).Silent s := by
  unfold handleHideLoader
  split
  · exact (publishCurrent_silent _).since rfl
  · rfl

end Scene

/-! ## Attempts -/

/-- A submission that is asked for while none is in flight, with the scene it is tried in. -/
structure Attempt where
  scene : Scene
  trigger : Trigger
  waiters : List Ticket

namespace Attempt

def make (x : Attempt) : Turn := x.scene.startSubmission x.trigger x.waiters

/-- The invalid fields. -/
def errors (x : Attempt) : FieldErrors := x.scene.form.currentErrors

/-- What stops the attempt, if anything does. -/
def stop? (x : Attempt) : Option FieldErrors := if x.errors.isEmpty then none else some x.errors

theorem make_eq_halt {x : Attempt} (invalid : x.errors.isEmpty = false) :
    x.make = x.scene.halt x.trigger x.waiters x.errors :=
  if_neg (by rw [show x.scene.form.registry.validate _ = x.errors from rfl, invalid]; nofun)

theorem make_ledger (x : Attempt) : x.make.scene.form.ledger = x.scene.form.ledger.stop x.stop? := by
  unfold make Scene.startSubmission stop?
  dsimp only
  rw [show x.scene.form.registry.validate x.scene.form.store.values = x.errors from rfl]
  split
  · exact (Scene.beginCycle_silent _ _ _).trans (Ledger.stop_none _).symm
  · exact (Scene.halt_ledger _ _ _ _).trans (Ledger.stop_some _ _).symm

end Attempt

/-- The attempt that was put off until now. -/
def Turn.next? : Turn → Option Attempt
  | .goesOn s => s.form.deferred.map fun d =>
    ⟨s.update fun f => { f with deferred := none }, d.trigger, d.waiters⟩
  | .falls _ => none

namespace Turn

variable {t : Turn}

/-- Makes the attempt that was put off. -/
def goOn (t : Turn) : Turn :=
  match t.next? with
  | some x => x.make
  | none => t.andThen Scene.publishCurrent

theorem goOn_eq : t.andThen (fun s =>
    match s.form.deferred with
    | some d => (s.update fun f => { f with deferred := none }).startSubmission d.trigger d.waiters
    | none => s.publishCurrent) = t.goOn := by
  unfold goOn next?
  cases t with
  | goesOn s =>
    dsimp only [andThen]
    cases s.form.deferred <;> rfl
  | falls s => rfl

theorem andThen_andThen {act next : Scene → Turn} :
    (t.andThen act).andThen next = t.andThen fun s => (act s).andThen next := by
  cases t <;> rfl

/-- What goes on adds the stop of the attempt that is made. -/
theorem goOn_ledger : t.goOn.scene.form.ledger =
    t.scene.form.ledger.stop (t.next?.bind Attempt.stop?) := by
  unfold goOn
  cases next : t.next? with
  | none => exact (ledger_andThen rfl Scene.publishCurrent_silent).trans (Ledger.stop_none _).symm
  | some x =>
    have told : x.scene.form.ledger = t.scene.form.ledger := by
      cases t with
      | goesOn s =>
        obtain ⟨d, -, rfl⟩ := Option.map_eq_some_iff.mp next
        rfl
      | falls => cases next
    exact told ▸ x.make_ledger

end Turn

namespace Scene

/-- The end of a submission, up to what was put off until then. -/
def settlement (s : Scene) (now : Nat) (p : Pending) (failure : Option SubmitError) : Turn :=
  (match failure with
    | none => (s.landed p.cycle failure).acknowledge p s.form.changedDuringSubmit
    | some e => (s.landed p.cycle failure).reject p e).andThen fun s =>
      (s.releaseToken.scheduleLoaderHide now).publish
        (if failure.isNone then .settledOk else .settledError)

/-- The attempt that a message makes. -/
def attempt? (s : Scene) (now : Nat) : Message → Option Attempt
  | .ask t .submit =>
    if s.form.pending.isSome then none else some ⟨s.cancelDebounce, .manual, [t]⟩
  | .debounceElapsed generation =>
    if generation = s.form.debounce.generation ∧ s.form.debounce.armed = true ∧
      s.form.pending.isNone = true then some ⟨s.cancelDebounce, .auto, []⟩
    else none
  | .settled cycle failure =>
    (s.form.pending.filter fun p => p.cycle = cycle).bind fun p =>
      (s.settlement now p failure).next?
  | _ => none

variable (s : Scene) (now : Nat) {p : Pending}

theorem settlement_ledger (flight : s.form.pending = some p) (failure : Option SubmitError) :
    (s.settlement now p failure).scene.form.ledger =
      s.form.ledger.fail (s.form.failure? (.settled p.cycle failure)) := by
  unfold settlement
  refine Turn.ledger_andThen ?_ fun s' => (publish_silent _ _).since ?_
  · cases failure with
    | none => exact acknowledge_silent _ _ _
    | some e =>
      have own : s.form.failure? (.settled p.cycle (some e)) = some (.submission p.cycle e) := by
        simp [Form.failure?, flight]
      rw [own]
      exact reject_ledger _ _ _
  · exact (scheduleLoaderHide_ledger _ _).trans (releaseToken_ledger s')

/-- The end of the submission in flight, and the attempt that was put off until then. -/
theorem handleSettled_eq (flight : s.form.pending = some p) (failure : Option SubmitError) :
    s.handleSettled now p.cycle failure = (s.settlement now p failure).goOn := by
  unfold handleSettled settlement
  rw [flight]
  simp only [ne_eq, not_true_eq_false, if_false]
  cases failure <;> rw [← Turn.goOn_eq, Turn.andThen_andThen] <;> rfl

/-- A message that makes an attempt does nothing after it. -/
theorem handle_of_attempt {m : Message} {x : Attempt} (h : s.attempt? now m = some x) :
    s.handle now m = x.make := by
  unfold attempt? at h
  split at h
  · rename_i t
    split at h
    · cases h
    · rename_i free
      cases h
      exact if_neg free
  · rename_i generation
    split at h
    · rename_i ready
      obtain ⟨current, armed, free⟩ := ready
      cases h
      show s.handleDebounceElapsed generation = _
      unfold handleDebounceElapsed
      rw [if_pos (by simp [current, armed]), if_neg (by simpa using free)]
      rfl
    · cases h
  · rename_i cycle failure
    obtain ⟨p, flight, next⟩ := Option.bind_eq_some_iff.mp h
    obtain ⟨flying, same⟩ := Option.filter_eq_some_iff.mp flight
    obtain rfl : p.cycle = cycle := by simpa using same
    show s.handleSettled now p.cycle failure = _
    rw [s.handleSettled_eq now flying, Turn.goOn, next]
  · cases h

/-- The failure that a message brings and the stop of the attempt that it makes have been added. -/
def ledgerAfter (m : Message) : Ledger :=
  ({ s.form.ledger with loading := s.form.isLoading && m.result?.isNone }.fail
    (s.form.failure? m)).stop ((s.attempt? now m).bind Attempt.stop?)

/-- Nothing is added for a message that brings no failure and makes no attempt. -/
theorem ledgerAfter_eq {m : Message} (result : m.result? = none) (failure : s.form.failure? m = none)
    (attempt : s.attempt? now m = none) : s.ledgerAfter now m = s.form.ledger := by
  unfold ledgerAfter
  rw [result, failure, attempt]
  simp [Form.ledger]

theorem ledgerAfter_of_attempt {m : Message} {x : Attempt} (result : m.result? = none)
    (failure : s.form.failure? m = none) (attempt : s.attempt? now m = some x) :
    s.ledgerAfter now m = s.form.ledger.stop x.stop? := by
  unfold ledgerAfter
  rw [result, failure, attempt]
  simp [Form.ledger]

theorem handleSubmit_ledger (t : Ticket) :
    (s.handleSubmit t).scene.form.ledger = s.ledgerAfter now (.ask t .submit) := by
  by_cases busy : s.form.pending.isSome = true
  · have none : s.attempt? now (.ask t .submit) = none := if_pos busy
    rw [ledgerAfter_eq s now rfl rfl none, handleSubmit, if_pos busy]
    exact s.defer_ledger .manual [t]
  · have attempt : s.attempt? now (.ask t .submit) = some ⟨s.cancelDebounce, .manual, [t]⟩ :=
      if_neg busy
    rw [ledgerAfter_of_attempt s now rfl rfl attempt, handleSubmit, if_neg busy]
    exact Attempt.make_ledger ⟨s.cancelDebounce, .manual, [t]⟩

theorem handleDebounceElapsed_ledger (generation : Nat) :
    (s.handleDebounceElapsed generation).scene.form.ledger =
      s.ledgerAfter now (.debounceElapsed generation) := by
  cases attempt : s.attempt? now (.debounceElapsed generation) with
  | some x =>
    obtain ⟨-, made⟩ := Option.ite_none_right_eq_some.mp attempt
    obtain rfl := Option.some.inj made
    have made : s.handleDebounceElapsed generation = _ := s.handle_of_attempt now attempt
    rw [made, ledgerAfter_of_attempt s now rfl rfl attempt]
    exact Attempt.make_ledger _
  | none =>
    rw [ledgerAfter_eq s now rfl rfl attempt]
    have late : ¬(generation = s.form.debounce.generation ∧ s.form.debounce.armed = true ∧
      s.form.pending.isNone = true) := by simpa [attempt?] using attempt
    unfold handleDebounceElapsed
    split
    · rename_i ready
      have ready : generation = s.form.debounce.generation ∧ s.form.debounce.armed = true := by
        simpa using ready
      have busy : s.form.pending.isSome = true := by
        by_contra free
        exact late ⟨ready.1, ready.2, by simpa using free⟩
      rw [if_pos busy]
      exact (publishCurrent_silent _).since (defer_ledger _ .auto [])
    · rfl

theorem handleSettled_ledger (cycle : Nat) (failure : Option SubmitError) :
    (s.handleSettled now cycle failure).scene.form.ledger =
      s.ledgerAfter now (.settled cycle failure) := by
  cases flight : s.form.pending.filter fun p => p.cycle = cycle with
  | none =>
    have other : ∀ p, s.form.pending = some p → p.cycle ≠ cycle := by
      simpa [Option.filter_eq_none_iff] using flight
    have stale : s.handleSettled now cycle failure = .goesOn s := by
      unfold handleSettled
      split
      · rfl
      · rename_i p flying
        exact if_pos (other p flying)
    have none : s.form.failure? (.settled cycle failure) = none := by
      cases failure with
      | none => rfl
      | some e => simpa [Form.failure?, Option.any_eq_true] using other
    have unmade : s.attempt? now (.settled cycle failure) = Option.none := by
      rw [attempt?, flight, Option.bind_none]
    rw [stale, ledgerAfter_eq s now rfl none unmade]
    rfl
  | some p =>
    obtain ⟨flying, same⟩ := Option.filter_eq_some_iff.mp flight
    obtain rfl : p.cycle = cycle := by simpa using same
    have attempt : s.attempt? now (.settled p.cycle failure) =
        (s.settlement now p failure).next? := by rw [attempt?, flight, Option.bind_some]
    rw [s.handleSettled_eq now flying, Turn.goOn_ledger, s.settlement_ledger now flying]
    unfold ledgerAfter
    rw [attempt]
    simp [Message.result?, Form.ledger]

/-- A message adds the failure that it brings and the stop of the attempt that it makes, and no
more. -/
theorem handle_ledger (m : Message) :
    (s.handle now m).scene.form.ledger = s.ledgerAfter now m := by
  cases m with
  | ask t request =>
    by_cases submits : request = .submit
    · subst submits
      exact s.handleSubmit_ledger now t
    · have unmade : s.attempt? now (.ask t request) = none := by
        cases request <;> first | rfl | exact absurd rfl submits
      rw [ledgerAfter_eq s now rfl rfl unmade]
      exact s.handleRequest_silent now t submits
  | fieldChanged path value =>
    rw [ledgerAfter_eq s now rfl rfl rfl]
    exact s.handleFieldChanged_silent now path value
  | debounceElapsed generation => exact s.handleDebounceElapsed_ledger now generation
  | settled cycle failure => exact s.handleSettled_ledger now cycle failure
  | loaded outcome =>
    refine (s.handleLoaded_ledger outcome).trans ?_
    unfold ledgerAfter
    rw [show s.attempt? now (.loaded outcome) = none from rfl]
    simp [Message.result?]
  | hideLoader generation =>
    rw [ledgerAfter_eq s now rfl rfl rfl]
    exact s.handleHideLoader_silent generation

end Scene

end LiveForm
