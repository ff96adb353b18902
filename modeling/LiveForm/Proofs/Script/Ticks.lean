import LiveForm.Proofs.Ledger
import LiveForm.Proofs.Script.Replica
import LiveForm.Proofs.Settling

/-!
# What the form of a script does at one instant

The form of a script that submits by hand has one handler, which takes the same time always, and no
fields, and nobody watches it. So what it does at one instant can be told step by step.

* `Scene.settle_of_ticks`: a form comes to where its steps lead, when nothing is left to do there;
* `Script.resting`, `Script.flying`: the form when it has nothing to do, and while a submission is in
  flight;
* `Script.settle_set`, `settle_launch`, `settle_landing`, `settle_submit`, `settle_hide`: the instants
  at which a write is done, a submission begins, ends, or does both, and the loader is hidden.
-/

set_option autoImplicit false

namespace LiveForm

/-! ## Ticks -/

namespace Scene

/-- So many steps lead from one scene to another at one instant. -/
inductive Ticks (now : Nat) : Nat → Scene → Scene → Prop where
  | here {s : Scene} : Ticks now 0 s s
  | next {n : Nat} {s s' s'' : Scene} : s.tick? now = some s' → Ticks now n s' s'' →
      Ticks now (n + 1) s s''

variable {now n : Nat} {s s' : Scene}

/-- A message that waits is handled next. -/
theorem tick?_handles {m : Message} {rest : List Message} (running : s.form.stopRequested = false)
    (mailbox : s.form.mailbox = m :: rest)
    (handled : (s.update fun f => { f with mailbox := rest }).handle now m = .goesOn s') :
    s.tick? now = some s' := by
  have next : s.handleNext? now = some s' := by
    unfold handleNext?
    rw [mailbox]
    exact congrArg (some ·.land) handled
  simp [tick?, running, next]

/-- The loop comes to where steps lead that leave nothing to do. -/
theorem settle_of_ticks {k : Nat} (ticks : Ticks now k s s') (still : s'.tick? now = none) :
    s.settle now = s' := by
  have comes (n : Nat) (rests : (s.settleWithin n now).tick? now = none) :
      s.settleWithin n now = s' := by
    induction ticks generalizing n with
    | here => exact settleWithin_still still
    | next tick _ ih =>
      cases n with
      | zero => cases rests.symm.trans tick
      | succ n =>
        rw [settleWithin, tick] at rests ⊢
        exact ih still n rests
  exact comes _ (tick?_eq_none.mpr (settle_rests s now))

end Scene

/-! ## Acts of a form that nobody watches -/

namespace Scene

variable {s s' : Scene}

theorem publish_unwatched (unwatched : s.form.observer = none) (phase : FormPhase) :
    s.publish phase = .goesOn (s.update fun f => { f with published := f.snapshot phase }) := by
  unfold publish observe
  dsimp only
  split
  · rename_i same
    show Turn.goesOn s = .goesOn ⟨{ s.form with published := s.form.snapshot phase }, s.guard⟩
    rw [same]
  · simp only [update, unwatched]

end Scene

/-- The loader once a submission has ended. -/
def Form.loaderAfter (f : Form) (now : Nat) : Loader :=
  if f.setup.loaderDelay = 0 then { f.loader with visible := false }
  else { f.loader with hideTimer := some ⟨now + f.setup.loaderDelay, f.loader.generation⟩ }

theorem Scene.scheduleLoaderHide_eq (s : Scene) (now : Nat) :
    s.scheduleLoaderHide now = s.update fun f => { f with loader := f.loaderAfter now } := by
  unfold scheduleLoaderHide Form.loaderAfter update
  dsimp only
  split <;> rfl

/-- A handler with one response gives it always. -/
theorem Plan.response_single (response : Response) (n : Nat) :
    Plan.response [response] n = response := by
  cases n <;> rfl

/-! ## The form of a script -/

namespace Script

variable (s : Script) (settings : Settings)

/-- What a form keeps of its past that the script does not tell. -/
structure Past where
  notified : Nat
  loader : Loader
  history : List Event

def Past.add (x : Past) (e : Event) : Past := { x with history := e :: x.history }

/-- The form of a script that submits by hand, when it has nothing to do. -/
def resting (r : Replica) (x : Past) : Form :=
  let f : Form := { Form.make (s.formConfig settings) 0 with
    setup := { (Form.make (s.formConfig settings) 0).setup with autoSubmit := false }
    handler := some ⟨[⟨s.latency.toNat, s.answer⟩], r.submits⟩
    notifier := ⟨none, x.notified⟩
    store := r.store
    isSubmitSuccessful := r.succeeded
    cycles := r.submits
    lastCycle := r.last?
    loader := x.loader
    history := x.history }
  { f with published := f.currentSnapshot }

variable {s settings} {r : Replica} {x : Past} {guard : UnloadGuard} {now : Nat}

theorem resting_still (asleep : ∀ t, x.loader.hideTimer = some t → now < t.due) :
    Scene.tick? ⟨s.resting settings r x, guard⟩ now = none := by
  have hide : x.loader.hideTimer.filter (fun t => decide (t.due ≤ now)) = none := by
    simpa [Option.filter_eq_none_iff] using asleep
  simp [Scene.tick?, Scene.handleNext?, Scene.startRun?, Scene.endCall?, Scene.finishRun?,
    Scene.fireDebounce?, Scene.fireHide?, Scene.finishLoad?, resting, Form.make, hide,
    Form.startFirst?, Form.endFirst?, Form.finishFirst?, formConfig]

/-- A write is done in one step. -/
theorem tick_set {t : Ticket} {path : FieldPath} {value : Json} {store : Store}
    (written : r.store.set? path value true = some store) :
    Scene.tick? ⟨(s.resting settings r x).post (.ask t (.setValue path value (some true))), guard⟩ now
      = some ⟨s.resting settings { r with store } (x.add (.answered t .done)), guard⟩ := by
  refine Scene.tick?_handles rfl rfl ?_
  show ((Scene.putStore _ (r.store.set? path value true)).andThen _).andThen _ = _
  rw [written]
  show ((Scene.publishCurrent _).andThen _) = _
  rw [Scene.publishCurrent, Scene.publish_unwatched rfl]
  rfl

/-! ## A submission -/

variable (s settings)

/-- What the handler is given. -/
def data (r : Replica) : SubmitData := ⟨submissionId (r.submits + 1), r.store.values,
  r.store.dirtyValues, .manual⟩

def call (r : Replica) (state : CallState) : Call :=
  ⟨.handler (data r), ⟨s.latency.toNat, s.answer⟩, state⟩

/-- The run of the submission, with its one call. -/
def run₁ (r : Replica) (state : CallState) : Run := ⟨r.submits + 1, [s.call r state]⟩

/-- The form of a script while the submission for a ticket is in flight. -/
def flying (r : Replica) (x : Past) (t : Ticket) (token : Nat) (runs : List Run)
    (mailbox : List Message) : Form :=
  let f : Form := { s.resting settings r x with
    handler := some ⟨[⟨s.latency.toNat, s.answer⟩], r.submits + 1⟩
    pending := some ((s.resting settings r x).nextPending .manual [t])
    token := some token
    isSubmitSuccessful := false
    cycles := r.submits + 1
    lastCycle := some (r.submits + 1)
    loader := ⟨true, x.loader.generation + 1, none⟩
    runs
    mailbox }
  { f with published := f.snapshot .submitting }

variable {s settings} {t : Ticket} {token : Nat}

theorem tick_submit :
    Scene.tick? ⟨(s.resting settings r x).post (.ask t .submit), guard⟩ now =
      some ⟨s.flying settings r (x.add (.began (r.submits + 1) .manual)) t guard.nextId
        [s.run₁ r .waiting] [],
        guard.acquire ((s.formConfig settings).catalog.message .submitInProgress)⟩ := by
  have begins : Scene.handle ⟨s.resting settings r x, guard⟩ now (.ask t .submit) =
      Scene.beginCycle ⟨s.resting settings r x, guard⟩ .manual [t] := by
    show Scene.startSubmission ⟨s.resting settings r x, guard⟩ .manual [t] = _
    unfold Scene.startSubmission
    exact if_pos rfl
  refine Scene.tick?_handles rfl rfl (begins.trans ?_)
  rw [Scene.beginCycle_eq, Scene.publish_unwatched rfl, run₁, call,
    ← Plan.response_single ⟨s.latency.toNat, s.answer⟩ r.submits]
  rfl

theorem tick_start :
    Scene.tick? ⟨s.flying settings r x t token [s.run₁ r .waiting] [], guard⟩ now =
      some ⟨s.flying settings r (x.add (.callStarted (.handler (data r)) guard.isBlocking)) t token
        [s.run₁ r (.running (now + s.latency.toNat))] [], guard⟩ := rfl

theorem tick_end {due : Nat} (late : due ≤ now) :
    Scene.tick? ⟨s.flying settings r x t token [s.run₁ r (.running due)] [], guard⟩ now =
      some ⟨s.flying settings r (x.add (.callEnded (.handler (data r)))) t token
        [s.run₁ r .ended] [], guard⟩ := by
  have ends : Form.endFirst? now [s.run₁ r (.running due)] =
      some (.handler (data r), [s.run₁ r .ended]) := by
    simp [Form.endFirst?, run₁, Run.endCall?, Run.endFirst?, call, Call.isDue, Call.due?, late]
  show ((Form.endFirst? now [s.run₁ r (.running due)]).map _ <|> _) = _
  rw [ends]
  rfl

theorem flying_still {due : Nat} (early : now < due) :
    Scene.tick? ⟨s.flying settings r x t token [s.run₁ r (.running due)] [], guard⟩ now = none := by
  have waits : Form.endFirst? now [s.run₁ r (.running due)] = none := by
    simp [Form.endFirst?, run₁, Run.endCall?, Run.endFirst?, call, Call.isDue, Call.due?,
      Nat.not_le.mpr early]
  show ((Form.endFirst? now [s.run₁ r (.running due)]).map _ <|> _) = _
  rw [waits]
  rfl

theorem tick_finish :
    Scene.tick? ⟨s.flying settings r x t token [s.run₁ r .ended] [], guard⟩ now =
      some ⟨s.flying settings r x t token [] [.settled (r.submits + 1) s.answer.failure?], guard⟩ := by
  have failure : Run.failure? (s.run₁ r .ended) = s.answer.failure? := by
    simp [Run.failure?, run₁, call]
  rw [← failure]
  rfl

/-- What is left of the past when the submission has ended. -/
def settledPast (s : Script) (settings : Settings) (r : Replica) (x : Past) (t : Ticket) (now : Nat) :
    Past where
  notified := if s.failSubmit then x.notified + 1 else x.notified
  loader := (s.flying settings r x t 0 [] []).loaderAfter now
  history :=
    .answered t (.outcome (((s.resting settings r x).nextPending .manual [t]).outcome s.answer.failure?)) ::
      (s.answer.failure?.map fun e =>
        Event.notified ((s.formConfig settings).catalog.message .submitError) e.message).toList ++
      .settled (r.submits + 1) s.answer.failure? :: x.history

/-- The form of a script that rests, but for what it has shown last. -/
def ending (s : Script) (settings : Settings) (r : Replica) (x : Past) (shown : FormPhase) : Form :=
  { s.resting settings r x with published := (s.resting settings r x).snapshot shown }

theorem settlement_fails (fails : s.failSubmit = true) :
    Scene.settlement ⟨s.flying settings r x t token [] [], guard⟩ now
        ((s.resting settings r x).nextPending .manual [t]) s.answer.failure? =
      .goesOn ⟨s.ending settings (r.submit s.failSubmit) (s.settledPast settings r x t now)
        .settledError, guard.release token⟩ := by
  have answer : s.answer = .fails (.rejected "echo handler configured to fail") := if_pos fails
  rw [settledPast, answer, fails]
  show Scene.publish (Scene.scheduleLoaderHide _ now) .settledError = _
  rw [Scene.scheduleLoaderHide_eq, Scene.publish_unwatched rfl]
  rfl

theorem settlement_succeeds (succeeds : s.failSubmit = false) :
    Scene.settlement ⟨s.flying settings r x t token [] [], guard⟩ now
        ((s.resting settings r x).nextPending .manual [t]) s.answer.failure? =
      .goesOn ⟨s.ending settings (r.submit s.failSubmit) (s.settledPast settings r x t now)
        .settledOk, guard.release token⟩ := by
  have answer : s.answer = .accepts := if_neg (by simp [succeeds])
  have store : (if (false || !r.store.isDirty) = true then some r.store
      else Store.commit? r.store.values []) =
        some (if r.store.isDirty then .reset r.store.values else r.store) := by
    cases r.store.isDirty <;> rfl
  rw [settledPast, answer, succeeds]
  show ((Scene.putStore _ (if (false || !r.store.isDirty) = true then some r.store
    else Store.commit? r.store.values [])).andThen _).andThen _ = _
  rw [store]
  show Scene.publish (Scene.scheduleLoaderHide _ now) .settledOk = _
  rw [Scene.scheduleLoaderHide_eq, Scene.publish_unwatched rfl]
  rfl

theorem ending_goOn (shown : FormPhase) :
    (Turn.goesOn ⟨s.ending settings r x shown, guard⟩).goOn =
      .goesOn ⟨s.resting settings r x, guard⟩ := by
  show Scene.publishCurrent _ = _
  rw [Scene.publishCurrent, Scene.publish_unwatched rfl]
  rfl

/-- The submission settles, and the form comes to rest. -/
theorem tick_settled :
    Scene.tick? ⟨s.flying settings r x t token [] [.settled (r.submits + 1) s.answer.failure?],
        guard⟩ now =
      some ⟨s.resting settings (r.submit s.failSubmit) (s.settledPast settings r x t now),
        guard.release token⟩ := by
  refine Scene.tick?_handles rfl rfl ?_
  show Scene.handleSettled ⟨s.flying settings r x t token [] [], guard⟩ now
    ((s.resting settings r x).nextPending .manual [t]).cycle s.answer.failure? = _
  rw [Scene.handleSettled_eq _ _ rfl]
  rcases Bool.eq_false_or_eq_true s.failSubmit with fails | succeeds
  · rw [settlement_fails fails, ending_goOn]
  · rw [settlement_succeeds succeeds, ending_goOn]

/-! ## The loader -/

/-- The loader is hidden only later, by a notice that still counts. -/
def Past.Asleep (x : Past) (now : Nat) : Prop :=
  ∀ t, x.loader.hideTimer = some t → now < t.due ∧ t.generation = x.loader.generation

def Past.hidden (x : Past) : Past :=
  { x with loader := { x.loader with visible := false, hideTimer := none } }

theorem Past.hidden_asleep (x : Past) (now : Nat) : x.hidden.Asleep now := nofun

theorem settledPast_asleep : (s.settledPast settings r x t now).Asleep now := by
  intro timer set
  simp only [settledPast, Form.loaderAfter] at set ⊢
  split at set
  · cases set
  · rename_i delays
    cases set
    rw [if_neg delays]
    exact ⟨Nat.lt_add_of_pos_right (Nat.pos_of_ne_zero delays), rfl⟩

/-- The loader is hidden when its time has come. -/
theorem ticks_hide {timer : Timer} (set : x.loader.hideTimer = some timer) (late : timer.due ≤ now)
    (current : timer.generation = x.loader.generation) :
    Scene.Ticks now 2 ⟨s.resting settings r x, guard⟩ ⟨s.resting settings r x.hidden, guard⟩ := by
  obtain ⟨notified, ⟨visible, generation, hideTimer⟩, history⟩ := x
  obtain rfl : hideTimer = some timer := set
  obtain rfl : timer.generation = generation := current
  have due : (some timer).filter (fun t => decide (t.due ≤ now)) = some timer := by
    simp [Option.filter, late]
  have fires : Scene.tick? ⟨s.resting settings r ⟨notified, ⟨visible, timer.generation, some timer⟩,
      history⟩, guard⟩ now = some ⟨(s.resting settings r ⟨notified,
        ⟨visible, timer.generation, none⟩, history⟩).post (.hideLoader timer.generation), guard⟩ := by
    show (((some timer).filter (fun t => decide (t.due ≤ now))).map _ <|> _) = _
    rw [due]
    rfl
  refine .next fires (.next (Scene.tick?_handles rfl rfl ?_) .here)
  show Scene.handleHideLoader ⟨s.resting settings r ⟨notified, ⟨visible, timer.generation, none⟩,
    history⟩, guard⟩ timer.generation = _
  unfold Scene.handleHideLoader
  rw [if_pos (by simp [resting, Form.make]), Scene.publishCurrent, Scene.publish_unwatched rfl]
  rfl

/-! ## Instants -/

theorem settle_still (asleep : x.Asleep now) :
    Scene.settle ⟨s.resting settings r x, guard⟩ now = ⟨s.resting settings r x, guard⟩ :=
  Scene.settleWithin_still (resting_still fun t set => (asleep t set).1)

theorem settle_set {path : FieldPath} {value : Json} {store : Store} (asleep : x.Asleep now)
    (written : r.store.set? path value true = some store) :
    Scene.settle ⟨(s.resting settings r x).post (.ask t (.setValue path value (some true))), guard⟩ now
      = ⟨s.resting settings { r with store } (x.add (.answered t .done)), guard⟩ := by
  exact Scene.settle_of_ticks (.next (tick_set written) .here)
    (resting_still fun t set => (asleep t set).1)

theorem settle_hide {timer : Timer} (set : x.loader.hideTimer = some timer) (late : timer.due ≤ now)
    (current : timer.generation = x.loader.generation) :
    Scene.settle ⟨s.resting settings r x, guard⟩ now = ⟨s.resting settings r x.hidden, guard⟩ := by
  exact Scene.settle_of_ticks (ticks_hide set late current) (resting_still nofun)

variable (settings r x guard now t) in
/-- The submission has been begun, and its handler has been called. -/
theorem settle_launch (later : 0 < s.latency.toNat) :
    ∃ guard' x', Scene.settle ⟨(s.resting settings r x).post (.ask t .submit), guard⟩ now =
        ⟨s.flying settings r x' t guard.nextId [s.run₁ r (.running (now + s.latency.toNat))] [],
          guard'⟩ ∧
      ∃ blocking, x'.history = .callStarted (.handler (data r)) blocking ::
        .began (r.submits + 1) .manual :: x.history := by
  exact ⟨_, _, Scene.settle_of_ticks (.next tick_submit (.next tick_start .here))
    (flying_still (Nat.lt_add_of_pos_right later)), _, rfl⟩

/-- The handler ends, and the submission settles. -/
theorem settle_landing {due : Nat} (late : due ≤ now) :
    Scene.settle ⟨s.flying settings r x t token [s.run₁ r (.running due)] [], guard⟩ now =
      ⟨s.resting settings (r.submit s.failSubmit)
        (s.settledPast settings r (x.add (.callEnded (.handler (data r)))) t now),
        guard.release token⟩ := by
  exact Scene.settle_of_ticks
    (.next (tick_end late) (.next tick_finish (.next tick_settled .here)))
    (resting_still fun t set => (settledPast_asleep t set).1)

variable (settings r x guard now t) in
/-- A handler that takes no time ends at once. -/
theorem settle_submit (atOnce : s.latency.toNat = 0) :
    ∃ guard' x', Scene.settle ⟨(s.resting settings r x).post (.ask t .submit), guard⟩ now =
        ⟨s.resting settings (r.submit s.failSubmit) (s.settledPast settings r x' t now), guard'⟩ ∧
      ∃ blocking, x'.history = .callEnded (.handler (data r)) ::
        .callStarted (.handler (data r)) blocking :: .began (r.submits + 1) .manual :: x.history := by
  exact ⟨_, _, Scene.settle_of_ticks (.next tick_submit (.next tick_start
    (.next (tick_end (by omega)) (.next tick_finish (.next tick_settled .here)))))
    (resting_still fun t set => (settledPast_asleep t set).1), _, rfl⟩

end Script

end LiveForm
