import LiveForm.Proofs.Answers
import LiveForm.Proofs.AutoSubmit
import LiveForm.Proofs.Custody
import LiveForm.Proofs.Values

/-!
# A submission from its beginning to its end

What a submission carries was taken when it began, and what comes of it was settled then too, since
its calls give the answers they were made with.

* `Form.Flies`: what a message does to the submission in flight;
* `Form.Verdict`: the failure that a submission reports, if any, is that of its run;
* `Log.Began`, `Log.since`: where a submission began, and what has been done since;
* `Course.tracks`: what is known of the submission in flight on every course.
-/

set_option autoImplicit false

namespace LiveForm

/-! ## What a message does to the submission in flight -/

/-- The submission in flight after a message that begins none. -/
def Form.pendingAfter (f : Form) : Message → Option Pending
  | .ask _ (.reset _) => f.pending.map .overtaken
  | .settled cycle _ => f.pending.filter fun p => p.cycle ≠ cycle
  | _ => f.pending

/-- From `f` to `g` a message has been handled: the submission in flight goes on or ends, or another
one begins, with the values that are there then. -/
inductive Form.Flies (f : Form) (m : Message) (g : Form) : Prop where
  | stays (cycles : g.cycles = f.cycles) (runs : g.runs = f.runs)
      (pending : g.pending = f.pendingAfter m)
  | begins {first : Form} {trigger : Trigger} {waiters : List Ticket}
      (last : first.cycles = f.cycles) (store : first.store = g.store)
      (cycles : g.cycles = f.cycles + 1) (runs : g.runs = f.runs ++ [first.nextRun trigger])
      (pending : g.pending = some (first.nextPending trigger waiters))

theorem Turn.andThen_eq_goesOn {t : Turn} {act : Scene → Turn} {s : Scene}
    (h : t.andThen act = .goesOn s) : ∃ s', t = .goesOn s' ∧ act s' = .goesOn s := by
  cases t with
  | goesOn s' => exact ⟨s', rfl, h⟩
  | falls => cases h

namespace Scene

variable {s s' : Scene} {m : Message}

theorem flies_of_custody (same : s'.custody = s.custody)
    (pending : s.form.pendingAfter m = s.form.pending) : s.form.Flies m s'.form :=
  .stays (congrArg Custody.cycles same) (congrArg Custody.runs same)
    ((congrArg Custody.pending same).trans pending.symm)

/-- After a turn that leaves alone what the form holds. -/
theorem flies_of_quiet {t : Turn} (h : t.Quiet s) (turn : t = .goesOn s')
    (pending : s.form.pendingAfter m = s.form.pending) : s.form.Flies m s'.form := by
  subst turn
  exact flies_of_custody h.goes pending

/-- An attempt begins a submission, or leaves what the form held when it was made. -/
theorem startSubmission_flies {trigger : Trigger} {waiters : List Ticket}
    (turn : s.startSubmission trigger waiters = .goesOn s') :
    s'.custody = s.custody ∨
      s.form.store = s'.form.store ∧ s'.form.cycles = s.form.cycles + 1 ∧
        s'.form.runs = s.form.runs ++ [s.form.nextRun trigger] ∧
        s'.form.pending = some (s.form.nextPending trigger waiters) := by
  have store := (startSubmission_keeps s trigger waiters).store
  rw [turn] at store
  unfold startSubmission at turn
  dsimp only at turn
  split at turn
  · have begun := beginCycle_goes turn
    exact .inr ⟨store.symm, congrArg Custody.cycles begun, congrArg Custody.runs begun,
      congrArg Custody.pending begun⟩
  · have halted := s.halt_quiet trigger waiters (s.form.registry.validate s.form.store.values)
    rw [turn] at halted
    exact .inl halted.goes

theorem flies_of_attempt {first : Scene} {trigger : Trigger} {waiters : List Ticket}
    (turn : first.startSubmission trigger waiters = .goesOn s')
    (cycles : first.form.cycles = s.form.cycles) (runs : first.form.runs = s.form.runs)
    (pending : first.form.pending = s.form.pendingAfter m) : s.form.Flies m s'.form := by
  rcases startSubmission_flies turn with same | ⟨store, counted, flown, flight⟩
  · exact .stays ((congrArg Custody.cycles same).trans cycles)
      ((congrArg Custody.runs same).trans runs) ((congrArg Custody.pending same).trans pending)
  · rw [cycles] at counted
    rw [runs] at flown
    exact .begins cycles store counted flown flight

variable (now : Nat)

theorem releaseToken_form (s : Scene) : s.releaseToken.form = { s.form with token := none } := by
  unfold releaseToken
  split
  · rfl
  · rename_i none
    rw [← none]

theorem handleSettled_flies {cycle : Nat} {failure : Option SubmitError}
    (turn : s.handleSettled now cycle failure = .goesOn s') :
    s.form.Flies (.settled cycle failure) s'.form := by
  unfold handleSettled at turn
  split at turn
  · rename_i free
    cases turn
    exact .stays rfl rfl (by simp [Form.pendingAfter, free])
  · rename_i p flight
    split at turn
    · rename_i other
      cases turn
      exact .stays rfl rfl (by simp [Form.pendingAfter, flight, Option.filter, other])
    · rename_i same
      have ended : s.form.pendingAfter (.settled cycle failure) = none := by
        simpa [Form.pendingAfter, flight] using same
      obtain ⟨s₁, answered, turn⟩ := Turn.andThen_eq_goesOn turn
      have told : s₁.custody = (s.landed cycle failure).custody := by
        cases failure with
        | none =>
          have quiet := (s.landed cycle none).acknowledge_quiet p s.form.changedDuringSubmit
          exact Turn.Quiet.goes (answered ▸ quiet)
        | some e =>
          have quiet := (s.landed cycle (some e)).reject_quiet p e
          exact Turn.Quiet.goes (answered ▸ quiet)
      obtain ⟨s₂, published, turn⟩ := Turn.andThen_eq_goesOn turn
      have shown := (s₁.releaseToken.scheduleLoaderHide now).publish_quiet
        (if failure.isNone then .settledOk else .settledError)
      have given : s₂.custody = s₁.releaseToken.custody :=
        Turn.Quiet.goes (published ▸ shown.since (scheduleLoaderHide_custody _ _))
      have cycles : s₂.form.cycles = s.form.cycles := by
        refine (congrArg Custody.cycles given).trans ?_
        refine (congrArg Form.cycles (releaseToken_form s₁)).trans ?_
        exact congrArg Custody.cycles told
      have runs : s₂.form.runs = s.form.runs := by
        refine (congrArg Custody.runs given).trans ?_
        refine (congrArg Form.runs (releaseToken_form s₁)).trans ?_
        exact congrArg Custody.runs told
      have pending : s₂.form.pending = s.form.pendingAfter (.settled cycle failure) := by
        rw [ended]
        refine (congrArg Custody.pending given).trans ?_
        refine (congrArg Form.pending (releaseToken_form s₁)).trans ?_
        exact congrArg Custody.pending told
      split at turn
      · exact flies_of_attempt turn cycles runs pending
      · have quiet := s₂.publishCurrent_quiet
        rw [turn] at quiet
        have same := quiet.goes
        exact .stays ((congrArg Custody.cycles same).trans cycles)
          ((congrArg Custody.runs same).trans runs) ((congrArg Custody.pending same).trans pending)

/-- What a message does to the submission in flight, if the form goes on. -/
theorem handle_flies (turn : s.handle now m = .goesOn s') : s.form.Flies m s'.form := by
  cases m with
  | fieldChanged path value => exact flies_of_quiet (s.handleFieldChanged_quiet now _ _) turn rfl
  | loaded outcome => exact flies_of_quiet (s.handleLoaded_quiet outcome) turn rfl
  | hideLoader generation => exact flies_of_quiet (s.handleHideLoader_quiet generation) turn rfl
  | settled cycle failure => exact handleSettled_flies now turn
  | debounceElapsed generation =>
    change s.handleDebounceElapsed generation = .goesOn s' at turn
    unfold handleDebounceElapsed at turn
    split at turn
    · split at turn
      · refine flies_of_quiet ?_ turn rfl
        exact (publishCurrent_quiet _).since (defer_custody s.cancelDebounce _ _)
      · exact flies_of_attempt turn rfl rfl rfl
    · cases turn
      exact .stays rfl rfl rfl
  | ask ticket request =>
    cases request with
    | setValue path value dirty =>
      refine flies_of_quiet ?_ turn rfl
      exact (s.handleSetValue_quiet now path value dirty).andThen fun s' => rfl
    | reset values =>
      obtain ⟨s₁, published, answered⟩ := Turn.andThen_eq_goesOn turn
      cases answered
      have quiet := s.handleReset_quiet values
      rw [published] at quiet
      have same := quiet.goes
      exact .stays (congrArg Custody.cycles same) (congrArg Custody.runs same)
        (congrArg Custody.pending same)
    | submit =>
      change s.handleSubmit ticket = .goesOn s' at turn
      unfold handleSubmit at turn
      split at turn
      · cases turn
        exact flies_of_custody (defer_custody s _ _) rfl
      · exact flies_of_attempt turn rfl rfl rfl
    | register path field =>
      change s.handleRequest now ticket (.register path field) = .goesOn s' at turn
      unfold handleRequest at turn
      dsimp only at turn
      split at turn
      all_goals
        cases turn
        exact .stays rfl rfl rfl
    | _ =>
      cases turn
      exact .stays rfl rfl rfl

end Scene

/-! ## What comes of a run -/

theorem Answer.failure?_eq_none {a : Answer} : a.failure? = none ↔ a = .accepts := by
  cases a <;> simp [failure?]

/-- A run fails unless all its calls accept. -/
theorem Run.failure?_eq_none {r : Run} :
    r.failure? = none ↔ ∀ call ∈ r.calls, call.response.answer = .accepts := by
  simp only [failure?, List.findSome?_eq_none_iff, Answer.failure?_eq_none]

/-- Only the answers count. -/
theorem Run.failure?_congr {r r' : Run}
    (same : r'.calls.map Call.response = r.calls.map Call.response) : r'.failure? = r.failure? := by
  have of_responses (r : Run) :
      r.failure? = (r.calls.map Call.response).findSome? fun x => x.answer.failure? := by
    rw [List.findSome?_map]
    rfl
  rw [of_responses, of_responses, same]

/-- A call that is put in the place of one with the same response changes no answers. -/
theorem Form.putCall_failure {f : Form} {run call : Nat} {c c' : Call}
    (found : f.call? run call = some c) (same : c'.response = c.response) :
    ∀ r' ∈ (f.putCall run call c').runs,
      ∃ r ∈ f.runs, r.cycle = r'.cycle ∧ r.failure? = r'.failure? := by
  intro r' among
  obtain ⟨i, place⟩ := List.mem_iff_getElem?.mp among
  rw [putCall, List.getElem?_modify] at place
  obtain ⟨r, here, rfl⟩ := Option.map_eq_some_iff.mp place
  refine ⟨r, List.mem_of_getElem? here, ?_, ?_⟩
  · split <;> rfl
  · split
    · rename_i this
      subst this
      obtain ⟨r₀, here', inside⟩ := Option.bind_eq_some_iff.mp found
      obtain rfl : r = r₀ := by simpa [here] using here'
      refine (Run.failure?_congr ?_).symm
      apply List.ext_getElem?
      intro j
      simp only [List.getElem?_map, List.getElem?_set]
      split
      · rename_i place
        subst place
        obtain ⟨bound, there⟩ := List.getElem?_eq_some_iff.mp inside
        simp [bound, there, same]
      · rfl
    · rfl

/-- The run of a cycle comes to this, and so does what is reported of it. -/
structure Form.Verdict (f : Form) (cycle : Nat) (failure : Option SubmitError) : Prop where
  runs : ∀ r ∈ f.runs, r.cycle = cycle → r.failure? = failure
  told : ∀ failure', .settled cycle failure' ∈ f.mailbox → failure' = failure

/-- Handling a message reports no end. -/
theorem Coordinator.Handles.reports {now cycle : Nat} {c c' : Coordinator} {m : Message}
    {failure : Option SubmitError} (h : c.Handles now m c')
    (told : .settled cycle failure ∈ c'.mailbox) : .settled cycle failure ∈ c.mailbox := by
  rcases h.waits with ⟨-, mailbox, -⟩ | ⟨-, mailbox⟩ | ⟨-, mailbox⟩
  · rwa [mailbox] at told
  · rwa [mailbox] at told
  · rw [mailbox] at told
    unfold Coordinator.request Coordinator.post at told
    dsimp only at told
    split at told
    · split at told
      · rcases List.mem_append.mp told with old | new
        · exact old
        · cases List.mem_singleton.mp new
      · exact told
    · exact told

section

variable {a b : Moment} {d : Deed} {m : Message} {cycle : Nat} {failure : Option SubmitError}

theorem Form.Verdict.post {f : Form} (h : f.Verdict cycle failure)
    (new : ∀ failure', m = .settled cycle failure' → failure' = failure) :
    (f.post m).Verdict cycle failure := by
  unfold Form.post
  split
  · refine ⟨h.runs, ?_⟩
    intro failure' told
    rcases List.mem_append.mp told with old | this
    · exact h.told failure' old
    · exact new failure' (List.mem_singleton.mp this).symm
  · exact h

/-- A message handled by a form that goes on. -/
theorem Moment.perform?_flies (h : a.perform? d = some b) (handles : a.act d = .handles m)
    (alive : b.form.alive = true) : a.form.Flies m b.form := by
  obtain ⟨rest, _, turn⟩ := handles_goesOn h handles alive
  cases Scene.handle_flies a.now turn with
  | stays cycles runs pending => exact .stays cycles runs pending
  | begins last store cycles runs pending => exact .begins last store cycles runs pending

theorem Form.Verdict.putCall {f : Form} {run call : Nat} {c c' : Call} (h : f.Verdict cycle failure)
    (found : f.call? run call = some c) (same : c'.response = c.response) :
    (f.putCall run call c').Verdict cycle failure := by
  refine ⟨fun r among eq => ?_, h.told⟩
  obtain ⟨r₀, among, cycle, failure⟩ := Form.putCall_failure found same r among
  exact failure ▸ h.runs r₀ among (cycle.trans eq)

/-- A message starts no run but that of a later submission, and reports no end. -/
theorem Form.Verdict.handle (verdict : a.form.Verdict cycle failure) (h : a.perform? d = some b)
    (handles : a.act d = .handles m) (alive : b.form.alive = true) (begun : cycle ≤ a.form.cycles) :
    b.form.Verdict cycle failure := by
  constructor
  · intro r among same
    cases Moment.perform?_flies h handles alive with
    | stays _ runs => exact verdict.runs r (runs ▸ among) same
    | begins last _ _ runs =>
      rw [runs] at among
      rcases List.mem_append.mp among with old | new
      · exact verdict.runs r old same
      · have next : r.cycle = a.form.cycles + 1 := by
          rw [List.mem_singleton.mp new, ← last]
          rfl
        omega
  · intro failure' told
    have step := (Moment.perform?_leaves h).step alive
    rw [handles] at step
    cases step with
    | handle head handled =>
      refine verdict.told failure' ?_
      have before : .settled cycle failure' ∈ a.form.coordinator.mailbox := by
        rw [head]
        exact List.mem_cons_of_mem _ (handled.reports told)
      exact before

/-- The verdict on a submission that has begun does not change. -/
theorem Form.Verdict.step (verdict : a.form.Verdict cycle failure) (h : a.perform? d = some b)
    (alive : b.form.alive = true) (begun : cycle ≤ a.form.cycles) :
    b.form.Verdict cycle failure := by
  cases d with
  | handle =>
    obtain ⟨m, rest, mailbox, _⟩ := Moment.handle_eq_some h
    have handles : a.act .handle = .handles m := by simp [Moment.act, mailbox]
    exact verdict.handle h handles alive begun
  | close =>
    simp only [Moment.perform?, Option.ite_none_right_eq_some, Option.some.injEq] at h
    obtain ⟨_, rfl⟩ := h
    cases alive
  | pass | stop | share =>
    cases h
    exact ⟨verdict.runs, verdict.told⟩
  | change =>
    cases h
    exact verdict.post (by rintro _ ⟨⟩)
  | ask =>
    simp only [Moment.perform?, Option.ite_none_right_eq_some, Option.some.injEq] at h
    obtain ⟨_, rfl⟩ := h
    exact verdict.post (by rintro _ ⟨⟩)
  | straggle notice =>
    simp only [Moment.perform?, Option.ite_none_right_eq_some, Option.some.injEq] at h
    obtain ⟨off, rfl⟩ := h
    refine verdict.post ?_
    rintro _ rfl
    cases off
  | startCall run call =>
    simp only [Moment.perform?, Scene.startCall?, Option.map_eq_some_iff,
      Option.filter_eq_some_iff] at h
    obtain ⟨_, ⟨c, ⟨found, _⟩, rfl⟩, rfl⟩ := h
    have same : (c.start a.now).response = c.response := by
      unfold Call.start
      split <;> rfl
    exact ⟨(verdict.putCall found same).runs, verdict.told⟩
  | endCall run call =>
    simp only [Moment.perform?, Scene.endCallAt?, Option.map_eq_some_iff,
      Option.filter_eq_some_iff] at h
    obtain ⟨_, ⟨c, ⟨found, _⟩, rfl⟩, rfl⟩ := h
    have same : ({ c with state := .ended } : Call).response = c.response := rfl
    exact ⟨(verdict.putCall found same).runs, verdict.told⟩
  | finishRun run =>
    simp only [Moment.perform?, Scene.finishRunAt?, Option.map_eq_some_iff,
      Option.filter_eq_some_iff] at h
    obtain ⟨_, ⟨r, ⟨found, _⟩, rfl⟩, rfl⟩ := h
    have rest : ({ a.form with runs := a.form.runs.eraseIdx run } : Form).Verdict cycle failure :=
      ⟨fun r' among => verdict.runs r' (List.mem_of_mem_eraseIdx among), verdict.told⟩
    refine rest.post ?_
    rintro failure' this
    cases this
    exact verdict.runs r (List.mem_of_getElem? found) rfl
  | fireDebounce | fireHide =>
    simp only [Moment.perform?, Scene.fireDebounce?, Scene.fireHide?, Option.map_eq_some_iff] at h
    obtain ⟨_, ⟨t, _, rfl⟩, rfl⟩ := h
    exact Form.Verdict.post (by exact ⟨verdict.runs, verdict.told⟩) (by rintro _ ⟨⟩)
  | finishLoad =>
    simp only [Moment.perform?, Scene.finishLoad?, Option.map_eq_some_iff] at h
    obtain ⟨_, ⟨l, _, rfl⟩, rfl⟩ := h
    have rest : ({ a.form with load := none } : Form).Verdict cycle failure :=
      ⟨verdict.runs, verdict.told⟩
    cases l.outcome with
    | panics => exact rest
    | values | fails => exact rest.post (by rintro _ ⟨⟩)

end

/-! ## Along a course -/

namespace Log

/-- The deeds done since a submission has begun, the last one first. -/
def since (cycle : Nat) (log : Log) : Log := log.takeWhile fun x => decide (cycle ≤ x.1.form.cycles)

/-- The moment after the last deed that was done before a submission had begun. -/
def beginning? (cycle : Nat) (log : Log) : Option Moment :=
  (log.find? fun x => decide (x.1.form.cycles < cycle)).bind fun x => x.1.perform? x.2

/-- The submission began in a deed that led to `b`. -/
structure Began (log : Log) (cycle : Nat) (b : Moment) : Prop where
  led : log.beginning? cycle = some b
  counted : b.form.cycles = cycle

variable {log : Log} {x : Moment × Deed} {cycle : Nat} {b b' : Moment}

theorem since_cons (begun : cycle ≤ x.1.form.cycles) :
    since cycle (x :: log) = x :: since cycle log :=
  List.takeWhile_cons_of_pos (decide_eq_true begun)

theorem since_first (before : x.1.form.cycles < cycle) : since cycle (x :: log) = [] :=
  List.takeWhile_cons_of_neg (by simpa using before)

theorem Began.cons (h : log.Began cycle b) (begun : cycle ≤ x.1.form.cycles) :
    Began (x :: log) cycle b := by
  refine ⟨?_, h.counted⟩
  rw [beginning?, List.find?_cons_of_neg]
  · exact h.led
  · simpa using begun

theorem Began.first (before : x.1.form.cycles < cycle) (h : x.1.perform? x.2 = some b)
    (begun : b.form.cycles = cycle) : Began (x :: log) cycle b := by
  refine ⟨?_, begun⟩
  rw [beginning?, List.find?_cons_of_pos]
  · exact h
  · exact decide_eq_true before

theorem Began.unique (h : log.Began cycle b) (h' : log.Began cycle b') : b = b' :=
  Option.some.inj (h.led.symm.trans h'.led)

/-- A log around the deed in which a submission began. -/
theorem Began.split (h : log.Began cycle b) :
    ∃ x earlier, log = log.since cycle ++ x :: earlier ∧ x.1.form.cycles < cycle ∧
      x.1.perform? x.2 = some b := by
  obtain ⟨x, found, done⟩ := Option.bind_eq_some_iff.mp h.led
  obtain ⟨before, later, earlier, rfl, since⟩ := List.find?_eq_some_iff_append.mp found
  refine ⟨x, earlier, ?_, of_decide_eq_true before, done⟩
  have ahead : ∀ y ∈ later, decide (cycle ≤ y.1.form.cycles) = true := by
    intro y among
    simpa using since y among
  unfold Log.since
  rw [List.takeWhile_append_of_pos ahead, List.takeWhile_cons_of_neg (by simpa using before),
    List.append_nil]

theorem since_subset {cycle' : Nat} (le : cycle ≤ cycle') :
    ∀ x ∈ log.since cycle', x ∈ log.since cycle := by
  induction log with
  | nil => exact fun x among => among
  | cons y rest ih =>
    intro x among
    by_cases begun : cycle' ≤ y.1.form.cycles
    · rw [since_cons begun] at among
      rw [since_cons (Nat.le_trans le begun)]
      exact List.mem_cons.mpr ((List.mem_cons.mp among).imp_right (ih x))
    · rw [since_first (Nat.lt_of_not_le begun)] at among
      cases among

/-- A submission has been answered with success by all it called, it had something to save, and no
reset was handled since it began. It carries `values`. -/
def Succeeds (log : Log) (cycle : Nat) (values : Json) : Prop :=
  ∃ b, log.Began cycle b ∧ b.form.store.isDirty = true ∧ b.form.store.values = values ∧
    (∀ r ∈ b.form.runs, r.cycle = cycle → ∀ call ∈ r.calls, call.response.answer = .accepts) ∧
    ∀ x ∈ log.since cycle, ¬Resets x

/-- One call that does not accept is enough to fail. -/
theorem Began.refused (h : log.Began cycle b) {r : Run} {call : Call} (among : r ∈ b.form.runs)
    (same : r.cycle = cycle) (inside : call ∈ r.calls)
    (refuses : call.response.answer ≠ .accepts) (values : Json) : ¬log.Succeeds cycle values := by
  rintro ⟨b', began, _, _, accepts, _⟩
  obtain rfl := h.unique began
  exact refuses (accepts r among same call inside)

end Log

/-- What is known of the submission in flight: it began in a deed that led to `b`, and what it
carries is what was there then; its run comes to `failure`; and a reset has overtaken it just if one
was handled since. -/
structure Pending.Tracked (p : Pending) (log : Log) (f : Form) (b : Moment)
    (failure : Option SubmitError) : Prop where
  began : log.Began p.cycle b
  edited : p.hadDirty = b.form.store.isDirty
  values : p.values = b.form.store.values
  overtaken : p.superseded = true ↔ ∃ x ∈ log.since p.cycle, Resets x
  called : ∃ r ∈ b.form.runs, r.cycle = p.cycle
  first : b.form.Verdict p.cycle failure
  verdict : f.Verdict p.cycle failure

section

variable {a b m : Moment} {d : Deed} {log : Log} {p : Pending} {failure : Option SubmitError}

/-- A tracked submission succeeds just if its run does, it had something to save, and no reset has
overtaken it. -/
theorem Pending.Tracked.succeeds_iff {f : Form} (h : p.Tracked log f b failure) {values : Json} :
    log.Succeeds p.cycle values ↔
      p.hadDirty = true ∧ p.superseded = false ∧ failure = none ∧ p.values = values := by
  have current : p.superseded = false ↔ ∀ x ∈ log.since p.cycle, ¬Resets x := by
    rw [← Bool.not_eq_true, h.overtaken]
    simp only [not_exists, not_and]
  constructor
  · rintro ⟨b', began, dirty, rfl, accepts, quiet⟩
    obtain rfl := h.began.unique began
    obtain ⟨r, among, same⟩ := h.called
    refine ⟨h.edited.trans dirty, current.mpr quiet, ?_, h.values⟩
    rw [← h.first.runs r among same]
    exact Run.failure?_eq_none.mpr (accepts r among same)
  · rintro ⟨edited, unspoiled, rfl, rfl⟩
    refine ⟨b, h.began, h.edited ▸ edited, h.values.symm, ?_, current.mp unspoiled⟩
    intro r among same
    exact Run.failure?_eq_none.mp (h.first.runs r among same)

/-- After a deed the submission in flight is the one there was, marked if the deed is a reset, or it
has begun in the deed. -/
theorem Moment.perform?_flight (h : a.perform? d = some b) (alive : b.form.alive = true) :
    (b.form.cycles = a.form.cycles ∧ ∀ p, b.form.pending = some p →
      ∃ p₀, a.form.pending = some p₀ ∧
        (¬Resets (a, d) ∧ p = p₀ ∨ Resets (a, d) ∧ p = p₀.overtaken)) ∨
    ∃ (first : Form) (trigger : Trigger) (waiters : List Ticket),
      first.cycles = a.form.cycles ∧ first.store = b.form.store ∧
      b.form.cycles = a.form.cycles + 1 ∧ b.form.runs = a.form.runs ++ [first.nextRun trigger] ∧
      b.form.pending = some (first.nextPending trigger waiters) := by
  cases act : a.act d with
  | handles m =>
    cases perform?_flies h act alive with
    | begins last store cycles runs pending =>
      exact .inr ⟨_, _, _, last, store, cycles, runs, pending⟩
    | stays cycles _ pending =>
      refine .inl ⟨cycles, ?_⟩
      intro p flight
      have after := pending.symm.trans flight
      have apart (other : ∀ t values, m ≠ .ask t (.reset values)) : ¬Resets (a, d) := by
        rintro ⟨t, values, handles⟩
        exact other t values (Act.handles.inj (act.symm.trans handles))
      cases m with
      | ask t request =>
        cases request with
        | reset values =>
          obtain ⟨p₀, before, rfl⟩ := Option.map_eq_some_iff.mp after
          exact ⟨p₀, before, .inr ⟨⟨t, values, act⟩, rfl⟩⟩
        | _ => exact ⟨p, after, .inl ⟨apart (by rintro _ _ ⟨⟩), rfl⟩⟩
      | settled cycle failure =>
        obtain ⟨before, _⟩ := Option.filter_eq_some_iff.mp after
        exact ⟨p, before, .inl ⟨apart (by rintro _ _ ⟨⟩), rfl⟩⟩
      | _ => exact ⟨p, after, .inl ⟨apart (by rintro _ _ ⟨⟩), rfl⟩⟩
  | asks | other =>
    have quiet : ¬Resets (a, d) := by
      rintro ⟨t, values, handles⟩
      cases act.symm.trans handles
    have handling : d ≠ .handle := by
      rintro rfl
      obtain ⟨m, rest, mailbox, _⟩ := handle_eq_some h
      simp [Moment.act, mailbox] at act
    have closing : d ≠ .close := by
      rintro rfl
      simp only [perform?, Option.ite_none_right_eq_some, Option.some.injEq] at h
      obtain ⟨_, rfl⟩ := h
      cases alive
    obtain ⟨guard, runs, same, -⟩ := perform?_custody h handling closing
    have pending : b.form.pending = a.form.pending := congrArg Custody.pending same
    exact .inl ⟨congrArg Custody.cycles same, fun p flight => ⟨p, pending ▸ flight, .inl ⟨quiet, rfl⟩⟩⟩

/-- A form that starts has no submission in flight. -/
theorem Moment.opening_pending (c : FormConfig) (now : Nat) (guard : UnloadGuard) :
    (Moment.opening c now guard).form.pending = none := by
  have quiet := Scene.publishCurrent_quiet ⟨Form.make c now, guard⟩
  unfold opening
  cases turn : Scene.publishCurrent ⟨Form.make c now, guard⟩ with
  | goesOn s =>
    rw [turn] at quiet
    exact congrArg Custody.pending quiet.goes
  | falls s => rfl

/-- Nothing else is under way where a submission has just begun. -/
theorem Form.alone_of_begun {f first : Form} {trigger : Trigger} {runs : List Run}
    (flown : f.runs = runs ++ [first.nextRun trigger]) (flights : f.flights = [first.cycles + 1]) :
    f.runs = [first.nextRun trigger] ∧ f.mailbox.filterMap Message.cycle? = [] := by
  have single : f.runs.map Run.cycle ++ f.mailbox.filterMap Message.cycle? =
      [first.cycles + 1] := flights
  have lengths := congrArg List.length single
  simp only [flown, List.map_append, List.length_append, List.length_map,
    List.length_singleton] at lengths
  obtain rfl : runs = [] := List.length_eq_zero_iff.mp (by omega)
  exact ⟨flown, List.length_eq_zero_iff.mp (by omega)⟩

theorem Form.verdict_of_alone {f : Form} {r : Run} (runs : f.runs = [r])
    (none : f.mailbox.filterMap Message.cycle? = []) : f.Verdict r.cycle r.failure? where
  runs r' among _ := by
    rw [runs] at among
    rw [List.mem_singleton.mp among]
  told failure told := by
    have among : r.cycle ∈ f.mailbox.filterMap Message.cycle? :=
      List.mem_filterMap.mpr ⟨_, told, rfl⟩
    rw [none] at among
    cases among

/-- The submission in flight is tracked on every course. -/
theorem Course.tracks {c : FormConfig} {now : Nat} {guard : UnloadGuard}
    (course : Course (.opening c now guard) log m) (alive : m.form.alive = true)
    (flight : m.form.pending = some p) : ∃ b failure, p.Tracked log m.form b failure := by
  induction course generalizing p with
  | here =>
    rw [Moment.opening_pending] at flight
    cases flight
  | @next log a b d before done ih =>
    have living := Moment.perform?_alive done alive
    rcases Moment.perform?_flight done alive with
      ⟨-, goes⟩ | ⟨first, trigger, waiters, last, store, cycles, runs, pending⟩
    · obtain ⟨p₀, flight₀, same⟩ := goes p flight
      obtain ⟨n, failure, tracked⟩ := ih living flight₀
      have begun : p₀.cycle ≤ a.form.cycles :=
        Nat.le_of_eq ((orderly before living).last p₀.regardless (by simp [Form.coordinator, flight₀]))
      have began : Log.Began ((a, d) :: log) p₀.cycle n := tracked.began.cons begun
      have since : Log.since p₀.cycle ((a, d) :: log) = (a, d) :: log.since p₀.cycle :=
        Log.since_cons begun
      have verdict := tracked.verdict.step done alive begun
      refine ⟨n, failure, ?_⟩
      rcases same with ⟨quiet, rfl⟩ | ⟨resets, rfl⟩
      · refine ⟨began, tracked.edited, tracked.values, ?_, tracked.called, tracked.first, verdict⟩
        rw [since, tracked.overtaken]
        simp only [List.mem_cons, exists_eq_or_imp, quiet, false_or]
      · refine ⟨began, tracked.edited, tracked.values, ?_, tracked.called, tracked.first, verdict⟩
        show true = true ↔ ∃ x ∈ Log.since p₀.cycle ((a, d) :: log), Resets x
        rw [since]
        exact iff_of_true rfl ⟨_, List.mem_cons_self, resets⟩
    · -- The submission has begun in this deed, so it carries what is there now.
      obtain rfl := Option.some.inj (pending.symm.trans flight)
      have counted : (first.nextPending trigger waiters).cycle = first.cycles + 1 := rfl
      have flights : b.form.flights = [first.cycles + 1] := by
        rw [one_flight_alive (before.next done) alive, flight]
        rfl
      obtain ⟨alone, none⟩ := Form.alone_of_begun runs flights
      have verdict := Form.verdict_of_alone alone none
      refine ⟨b, (first.nextRun trigger).failure?, ?_, ?_, ?_, ?_, ?_, verdict, verdict⟩
      · refine .first ?_ done (cycles.trans (congrArg (· + 1) last.symm))
        show a.form.cycles < first.cycles + 1
        omega
      · exact congrArg Store.isDirty store
      · exact congrArg Store.values store
      · have none : Log.since (first.cycles + 1) ((a, d) :: log) = [] :=
          Log.since_first (show a.form.cycles < first.cycles + 1 by omega)
        rw [counted, none]
        exact ⟨by rintro ⟨⟩, by rintro ⟨_, ⟨⟩, _⟩⟩
      · refine ⟨first.nextRun trigger, ?_, rfl⟩
        rw [runs]
        exact List.mem_append_right _ List.mem_cons_self

end

end LiveForm
