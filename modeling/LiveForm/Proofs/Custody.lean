import LiveForm.Proofs.Coordinator.Step

/-!
# What a form holds for a submission

While a submission is in flight the form holds a token of the guard for it, the values it has been
started with, and its run.

* `Scene.custody` reads this off a scene;
* `Turn.Quiet`: acts that show, tell, write or wait leave it alone;
* `Scene.begun`, `Scene.landed`: a submission begins and ends;
* `Moment.perform?_custody`: only messages and the end of the form make a difference.
-/

set_option autoImplicit false

namespace LiveForm

structure Custody where
  guard : UnloadGuard
  token : Option Nat
  pending : Option Pending
  cycles : Nat
  runs : List Run

/-- A reset has overtaken the submission. -/
def Pending.overtaken (p : Pending) : Pending := { p with superseded := true }

def Scene.custody (s : Scene) : Custody :=
  ⟨s.guard, s.form.token, s.form.pending, s.form.cycles, s.form.runs⟩

/-- A turn leaves alone what the form holds, however it ends. -/
def Turn.Quiet (t : Turn) (s : Scene) : Prop := t.scene.custody = s.custody

theorem Turn.Quiet.goes {s s' : Scene} (h : (Turn.goesOn s').Quiet s) : s'.custody = s.custody := h

theorem Turn.Quiet.andThen {t : Turn} {s : Scene} {act : Scene → Turn} (h : t.Quiet s)
    (next : ∀ s', (act s').Quiet s') : (t.andThen act).Quiet s := by
  cases t with
  | goesOn s' => exact (next s').trans h
  | falls => exact h

/-- An act after which the form holds what it held before. -/
theorem Turn.Quiet.since {t : Turn} {s s' : Scene} (h : t.Quiet s')
    (same : s'.custody = s.custody) : t.Quiet s := Eq.trans h same

namespace Scene

variable (s : Scene) (now : Nat)

/-! ## Acts that show and tell -/

theorem observe_quiet (shown : Snapshot) : (s.observe shown).Quiet s := by
  unfold observe Turn.Quiet
  split
  · rfl
  · dsimp only
    split <;> rfl

theorem publish_quiet (phase : FormPhase) : (s.publish phase).Quiet s := by
  unfold publish
  dsimp only
  split
  · rfl
  · exact (observe_quiet _ _).since rfl

theorem publishCurrent_quiet : s.publishCurrent.Quiet s := s.publish_quiet _

theorem notify_quiet (key : MessageKey) (detail : String) : (s.notify key detail).Quiet s := by
  unfold notify Turn.Quiet
  dsimp only
  split <;> rfl

theorem reportInvalid_quiet (errors : FieldErrors) : (s.reportInvalid errors).Quiet s := by
  unfold reportInvalid Turn.Quiet
  split
  · rfl
  · dsimp only
    split <;> rfl

theorem answerAll_custody (tickets : List Ticket) (reply : Reply) :
    (s.answerAll tickets reply).custody = s.custody := by
  unfold answerAll
  induction tickets generalizing s with
  | nil => rfl
  | cons t rest ih => exact ih (s.answer t reply)

/-! ## Acts that write and wait -/

theorem runHook_custody (path : FieldPath) (value : Json) :
    (s.runHook path value).custody = s.custody := by
  unfold runHook
  split <;> rfl

theorem putStore_quiet (store : Option Store) : (s.putStore store).Quiet s := by
  unfold putStore
  split <;> rfl

theorem noteChanged_custody (path : FieldPath) : (s.noteChanged path).custody = s.custody := by
  unfold noteChanged update
  dsimp only
  split <;> rfl

theorem requestSubmit_custody : (s.requestSubmit now).custody = s.custody := by
  unfold requestSubmit update
  dsimp only
  split
  · unfold Form.post
    split <;> rfl
  · rfl

theorem defer_custody (trigger : Trigger) (waiters : List Ticket) :
    (s.defer trigger waiters).custody = s.custody := by
  unfold defer update
  dsimp only
  split <;> rfl

theorem scheduleLoaderHide_custody : (s.scheduleLoaderHide now).custody = s.custody := by
  unfold scheduleLoaderHide update
  dsimp only
  split <;> rfl

/-! ## Messages that neither begin nor end a submission -/

theorem halt_quiet (trigger : Trigger) (waiters : List Ticket) (errors : FieldErrors) :
    (s.halt trigger waiters errors).Quiet s := by
  unfold halt
  refine Turn.Quiet.andThen ((reportInvalid_quiet _ _).since rfl) ?_
  intro s'
  refine Turn.Quiet.andThen ((publish_quiet _ _).since ?_) publishCurrent_quiet
  exact answerAll_custody _ _ _

theorem handleFieldChanged_quiet (path : FieldPath) (value : Json) :
    (s.handleFieldChanged now path value).Quiet s := by
  unfold handleFieldChanged
  refine Turn.Quiet.andThen ((putStore_quiet _ _).since (runHook_custody s path value)) ?_
  intro s'
  refine (publishCurrent_quiet _).since ?_
  split
  · rw [requestSubmit_custody, noteChanged_custody]
  · exact noteChanged_custody _ _

theorem handleSetValue_quiet (path : FieldPath) (value : Json) (dirty : Option Bool) :
    (s.handleSetValue now path value dirty).Quiet s := by
  unfold handleSetValue
  refine Turn.Quiet.andThen ((putStore_quiet _ _).since ?_) ?_
  · split
    · exact noteChanged_custody _ _
    · rfl
  · intro s'
    refine (publishCurrent_quiet _).since ?_
    split
    · exact requestSubmit_custody _ _
    · rfl

theorem handleLoaded_quiet (outcome : Except String Json) : (s.handleLoaded outcome).Quiet s := by
  unfold handleLoaded
  refine Turn.Quiet.andThen ?_ publishCurrent_quiet
  cases outcome with
  | ok values =>
    exact Turn.Quiet.andThen ((putStore_quiet _ _).since rfl) fun s' => rfl
  | error message => exact (notify_quiet _ _ _).since rfl

theorem handleHideLoader_quiet (generation : Nat) : (s.handleHideLoader generation).Quiet s := by
  unfold handleHideLoader
  split
  · exact (publishCurrent_quiet _).since rfl
  · rfl

theorem acknowledge_quiet (p : Pending) (changed : List FieldPath) :
    (s.acknowledge p changed).Quiet s := by
  unfold acknowledge
  refine Turn.Quiet.andThen (putStore_quiet _ _) ?_
  intro s'
  exact (answerAll_custody _ _ _).trans rfl

theorem reject_quiet (p : Pending) (e : SubmitError) : (s.reject p e).Quiet s := by
  unfold reject
  refine Turn.Quiet.andThen ((notify_quiet _ _ _).since rfl) ?_
  intro s'
  exact answerAll_custody _ _ _

/-- A reset leaves it at that, but for the mark on the submission in flight. -/
theorem handleReset_quiet (values : Option Json) :
    (s.handleReset values).Quiet
      (s.update fun f => { f with pending := f.pending.map .overtaken }) :=
  (publishCurrent_quiet _).since rfl

/-! ## A submission begins and ends -/

/-- The scene in which a submission has begun, before anybody is shown so. -/
def begun (s : Scene) (trigger : Trigger) (waiters : List Ticket) : Scene :=
  s.acquireToken.update fun f =>
    { f.countCalls with
      pending := some (s.form.nextPending trigger waiters)
      errors := []
      isSubmitSuccessful := false
      cycles := f.cycles + 1
      lastCycle := some (f.cycles + 1) }

theorem beginCycle_eq (trigger : Trigger) (waiters : List Ticket) :
    s.beginCycle trigger waiters =
      ((((s.begun trigger waiters).showLoader.log (.began (s.form.nextRun trigger).cycle
        trigger)).publish .submitting).andThen fun s' =>
          .goesOn (s'.update fun f => { f with runs := f.runs ++ [s.form.nextRun trigger] })) := rfl

/-- However the beginning of a submission ends, the form holds a token for it. -/
theorem beginCycle_custody (trigger : Trigger) (waiters : List Ticket) :
    ∃ runs, (s.beginCycle trigger waiters).scene.custody =
      { (s.begun trigger waiters).custody with runs } := by
  rw [beginCycle_eq]
  have shown := publish_quiet ((s.begun trigger waiters).showLoader.log
    (.began (s.form.nextRun trigger).cycle trigger)) .submitting
  generalize Scene.publish _ _ = t at shown ⊢
  cases t with
  | goesOn s' =>
    refine ⟨s'.form.runs ++ [s.form.nextRun trigger], ?_⟩
    exact congrArg (fun c : Custody => { c with runs := s'.form.runs ++ [s.form.nextRun trigger] })
      shown
  | falls s' => exact ⟨s.form.runs, shown⟩

/-- Once the beginning of a submission has been shown its run is there. -/
theorem beginCycle_goes {s s' : Scene} {trigger : Trigger} {waiters : List Ticket}
    (turn : s.beginCycle trigger waiters = .goesOn s') :
    s'.custody = { (s.begun trigger waiters).custody with
      runs := s.form.runs ++ [s.form.nextRun trigger] } := by
  rw [beginCycle_eq] at turn
  have shown := publish_quiet ((s.begun trigger waiters).showLoader.log
    (.began (s.form.nextRun trigger).cycle trigger)) .submitting
  generalize Scene.publish _ _ = t at shown turn
  cases t with
  | falls => cases turn
  | goesOn s₁ =>
    cases turn
    have same : s₁.custody = (s.begun trigger waiters).custody := shown
    have runs : s₁.form.runs = s.form.runs := congrArg Custody.runs same
    show { s₁.custody with runs := s₁.form.runs ++ [s.form.nextRun trigger] } = _
    rw [same, runs]

/-- The scene in which a submission has ended, before its outcome is told. Its token is still held. -/
def landed (s : Scene) (cycle : Nat) (failure : Option SubmitError) : Scene :=
  (s.update fun f => { f with pending := none, changedDuringSubmit := [] }).log
    (.settled cycle failure)

end Scene

/-! ## Deeds -/

theorem Scene.post_custody (f : Form) (guard : UnloadGuard) (m : Message) :
    custody ⟨f.post m, guard⟩ = custody ⟨f, guard⟩ := by
  unfold Form.post
  split <;> rfl

theorem Moment.perform?_custody {a b : Moment} {d : Deed} (h : a.perform? d = some b)
    (handling : d ≠ .handle) (closing : d ≠ .close) :
    ∃ guard runs, b.scene.custody = { a.scene.custody with guard, runs } ∧
      ((∀ g, d ≠ .share g) → guard = a.scene.guard) := by
  cases d with
  | handle => exact absurd rfl handling
  | close => exact absurd rfl closing
  | pass | stop =>
    cases h
    exact ⟨_, _, rfl, fun _ => rfl⟩
  | share guard =>
    cases h
    exact ⟨guard, _, rfl, fun own => absurd rfl (own guard)⟩
  | change =>
    cases h
    exact ⟨_, _, Scene.post_custody _ _ _, fun _ => rfl⟩
  | ask | straggle =>
    simp only [perform?, Option.ite_none_right_eq_some, Option.some.injEq] at h
    obtain ⟨_, rfl⟩ := h
    exact ⟨_, _, Scene.post_custody _ _ _, fun _ => rfl⟩
  | startCall | endCall =>
    simp only [perform?, Scene.startCall?, Scene.endCallAt?, Option.map_eq_some_iff] at h
    obtain ⟨_, ⟨c, _, rfl⟩, rfl⟩ := h
    exact ⟨_, _, rfl, fun _ => rfl⟩
  | finishRun run =>
    simp only [perform?, Scene.finishRunAt?, Option.map_eq_some_iff] at h
    obtain ⟨_, ⟨r, _, rfl⟩, rfl⟩ := h
    exact ⟨_, _, Scene.post_custody _ _ _, fun _ => rfl⟩
  | fireDebounce | fireHide =>
    simp only [perform?, Scene.fireDebounce?, Scene.fireHide?, Option.map_eq_some_iff] at h
    obtain ⟨_, ⟨t, _, rfl⟩, rfl⟩ := h
    exact ⟨_, _, Scene.post_custody _ _ _, fun _ => rfl⟩
  | finishLoad =>
    simp only [perform?, Scene.finishLoad?, Option.map_eq_some_iff] at h
    obtain ⟨_, ⟨l, _, rfl⟩, rfl⟩ := h
    cases l.outcome with
    | panics => exact ⟨_, _, rfl, fun _ => rfl⟩
    | values | fails =>
      exact ⟨_, _, Scene.post_custody _ _ _, fun _ => rfl⟩

end LiveForm
