import LiveForm.Proofs.Clock
import LiveForm.Proofs.Custody
import LiveForm.Proofs.Due

/-!
# How a wait counts down

A form that submits on its own waits after an edit, and each further edit sets the wait anew.

* `Message.disturbs`: what would call the wait off, or change what is to be submitted;
* `Moment.Idles`, `Moment.Awaits`: a form that has nothing to submit, and one that waits until a time;
* `Moment.perform?_idles`, `perform?_awaits`: without disturbance it stays at that until then;
* `Moment.perform?_rearms`: an edit begins the wait.
-/

set_option autoImplicit false

namespace LiveForm

open Coordinator

/-- Submits, resets, loads and edits of any kind. -/
def Message.disturbs : Message → Bool
  | .ask _ .submit => true
  | .ask _ (.reset _) => true
  | .ask _ (.setValue _ _ _) => true
  | .fieldChanged _ _ => true
  | .loaded _ => true
  | _ => false

/-- A message is handled that disturbs. -/
def Disturbs (x : Moment × Deed) : Prop := (x.1.act x.2).isHandling Message.disturbs = true

instance : DecidablePred Disturbs := fun _ => inferInstanceAs (Decidable (_ = true))

namespace Coordinator

variable {now : Nat} {c c' : Coordinator} {m : Message}

/-- What a message leaves of the wait that does not disturb it and does not end it. -/
structure Calm (c c' : Coordinator) : Prop where
  attempts : c'.attempts = c.attempts
  debounce : c'.debounce = c.debounce
  pending : c'.pending = c.pending
  deferred : c'.deferred = c.deferred

/-- While nothing is in flight a message that does not disturb changes nothing, or it is the notice
that the wait is over. -/
theorem Handles.calm (h : c.Handles now m c') (free : c.pending = none)
    (undisturbed : m.disturbs = false) :
    c.Calm c' ∨ m = .debounceElapsed c.debounce.generation ∧ c.debounce.armed = true ∧
      c.cancel.Attempts .auto [] c' := by
  cases h with
  | aside | stale | unknown => exact .inl ⟨rfl, rfl, rfl, rfl⟩
  | told => exact .inl ⟨answer_attempts _ _ _, rfl, rfl, rfl⟩
  | changed | written | reset | submitLater | submitNow => cases undisturbed
  | elapsedLater _ busy => simp [free] at busy
  | elapsedNow armed _ next => exact .inr ⟨rfl, armed, next⟩
  | settledLast flight | settledNext flight => cases free.symm.trans flight

/-- When no wait is on and nothing is put off, a message that does not disturb makes no attempt. -/
theorem Handles.done (h : c.Handles now m c') (unarmed : c.debounce.armed = false)
    (clear : c.deferred = none) (undisturbed : m.disturbs = false) :
    c'.attempts = c.attempts ∧ c'.debounce.armed = false ∧ c'.deferred = none := by
  cases h with
  | aside | stale | unknown => exact ⟨rfl, unarmed, clear⟩
  | told => exact ⟨answer_attempts _ _ _, unarmed, clear⟩
  | changed | written | reset | submitLater | submitNow => cases undisturbed
  | elapsedLater armed | elapsedNow armed => simp [unarmed] at armed
  | settledLast => exact ⟨settle_attempts _ _ _, unarmed, clear⟩
  | settledNext _ waiting => cases clear.symm.trans waiting

/-- An attempt that a form makes on its own is told so. -/
theorem Attempts.auto {waiters : List Ticket} (h : c.Attempts .auto waiters c') :
    ∃ e, c'.attempts = e :: c.attempts ∧ e.isAuto = true := by
  cases h with
  | begins _ cause => exact ⟨_, begin_attempts _ _ _, by simp [Event.isAuto, cause]⟩
  | halts => exact ⟨_, halt_attempts _ _ _ _, rfl⟩

end Coordinator

/-! ## Moments -/

/-- A form that lives has nothing to submit. -/
structure Moment.Idles (m : Moment) : Prop where
  alive : m.form.alive = true
  free : m.form.pending = none
  unarmed : m.form.debounce.armed = false

/-- A form that lives waits to submit. Until the time has come its timer is set. -/
structure Moment.Awaits (m : Moment) (due : Nat) : Prop where
  alive : m.form.alive = true
  free : m.form.pending = none
  armed : m.form.debounce.armed = true
  timer : m.form.debounce.timer = some ⟨due, m.form.debounce.generation⟩ ∨
    (m.form.debounce.timer = none ∧ due ≤ m.now)

section

variable {c : FormConfig} {now due : Nat} {guard : UnloadGuard} {a b m : Moment} {d : Deed} {log : Log}

theorem Course.timed (course : Course (.opening c now guard) log m) (alive : m.form.alive = true) :
    m.form.debounce.Timed m.form.mailbox :=
  course.keeps_alive (P := Coordinator.Timed) (fun living step timed => timed.step step living)
    ⟨by rintro _ ⟨⟩, by rintro _ ⟨⟩, by rintro ⟨⟩⟩ alive

/-- Other deeds than messages only bring on the end of the wait, when it has come. -/
theorem Moment.perform?_debounce (h : a.perform? d = some b) (handling : d ≠ .handle)
    (closing : d ≠ .close) : b.form.debounce = a.form.debounce ∨
      ∃ t, a.form.debounce.timer = some t ∧ t.due ≤ a.now ∧
        b.form.debounce = { a.form.debounce with timer := none } := by
  have put (f : Form) (m : Message) : (f.post m).debounce = f.debounce := by
    unfold Form.post
    split <;> rfl
  cases d with
  | handle => exact absurd rfl handling
  | close => exact absurd rfl closing
  | pass | stop | share =>
    cases h
    exact .inl rfl
  | change =>
    cases h
    exact .inl (put _ _)
  | ask | straggle =>
    simp only [perform?, Option.ite_none_right_eq_some, Option.some.injEq] at h
    obtain ⟨_, rfl⟩ := h
    exact .inl (put _ _)
  | startCall | endCall =>
    simp only [perform?, Scene.startCall?, Scene.endCallAt?, Option.map_eq_some_iff] at h
    obtain ⟨_, ⟨c, _, rfl⟩, rfl⟩ := h
    exact .inl rfl
  | finishRun | fireHide =>
    simp only [perform?, Scene.finishRunAt?, Scene.fireHide?, Option.map_eq_some_iff] at h
    obtain ⟨_, ⟨_, _, rfl⟩, rfl⟩ := h
    exact .inl (put _ _)
  | fireDebounce =>
    simp only [perform?, Scene.fireDebounce?, Option.map_eq_some_iff,
      Option.filter_eq_some_iff] at h
    obtain ⟨_, ⟨t, ⟨timer, past⟩, rfl⟩, rfl⟩ := h
    exact .inr ⟨t, timer, by simpa using past, put _ _⟩
  | finishLoad =>
    simp only [perform?, Scene.finishLoad?, Option.map_eq_some_iff] at h
    obtain ⟨_, ⟨l, _, rfl⟩, rfl⟩ := h
    cases l.outcome with
    | panics => exact .inl rfl
    | values | fails => exact .inl (put _ _)

/-- A form that ended within a step has attempted no more than the step does. -/
theorem Form.attempts_within {f : Form} {last : Coordinator}
    (ends : f.coordinator = last ∨ f.alive = false ∧ f.coordinator.Precedes last) :
    f.attempts <:+ last.attempts := by
  rw [← f.coordinator_attempts]
  rcases ends with rfl | ⟨-, before⟩
  · exact List.suffix_rfl
  · exact before.record.filter _

theorem Form.AttemptsOnce.none {f g : Form} (h : f.AttemptsOnce g)
    (few : g.attempts.length ≤ f.attempts.length) : g.attempts = f.attempts := by
  rcases h with same | ⟨e, more, -⟩
  · exact same
  · rw [more, List.length_cons] at few
    omega

/-- Deeds that handle no message make no attempt. -/
theorem Moment.perform?_unattempted (h : a.perform? d = some b) (idle : ∀ m, a.act d ≠ .handles m) :
    b.form.attempts = a.form.attempts := by
  have few (last : Coordinator) (step : a.form.coordinator.Step a.now (a.act d) last)
      (ends : b.form.coordinator = last ∨ b.form.alive = false ∧ b.form.coordinator.Precedes last) :
      b.form.attempts = a.form.attempts := by
    have within := Form.attempts_within ends
    rw [(step.idle idle).2.2.2, Form.coordinator_attempts] at within
    exact (perform?_attempts h).none within.length_le
  cases perform?_leaves h with
  | whole step => exact few _ step (.inl rfl)
  | rest step gone before => exact few _ step (.inr ⟨gone.dead, before⟩)

/-! ## Without disturbance -/

/-- What a message does that does not disturb a form with nothing in flight. If the form ends, it has
made no more attempts than it would have made. -/
theorem Moment.handles_calm (h : a.perform? d = some b) {m : Message} (handles : a.act d = .handles m)
    (free : a.form.pending = none) (undisturbed : m.disturbs = false) :
    ∃ last, (a.form.coordinator.Calm last ∨ m = .debounceElapsed a.form.debounce.generation ∧
        a.form.debounce.armed = true ∧ last.debounce.armed = false ∧
        last.deferred = a.form.deferred ∧
        ∃ e, last.attempts = e :: a.form.attempts ∧ e.isAuto = true) ∧
      (b.form.coordinator = last ∨ b.form.alive = false ∧ b.form.coordinator.Precedes last) := by
  have calm {last : Coordinator} (step : a.form.coordinator.Step a.now (.handles m) last) :
      a.form.coordinator.Calm last ∨ m = .debounceElapsed a.form.debounce.generation ∧
        a.form.debounce.armed = true ∧ last.debounce.armed = false ∧
        last.deferred = a.form.deferred ∧
        ∃ e, last.attempts = e :: a.form.attempts ∧ e.isAuto = true := by
    cases step with
    | handle mailbox handled =>
      have grounded : a.form.coordinator.pending = none := by simp [Form.coordinator, free]
      rcases handled.calm grounded undisturbed with same | ⟨rfl, armed, next⟩
      · exact .inl ⟨same.attempts, same.debounce, same.pending, same.deferred⟩
      · obtain ⟨e, made, auto⟩ := next.auto
        obtain ⟨debounce, -, deferred⟩ := next.waits
        refine .inr ⟨rfl, armed, by rw [debounce]; rfl, deferred, e, ?_, auto⟩
        rw [made, ← Form.coordinator_attempts]
        rfl
  have leaves := perform?_leaves h
  rw [handles] at leaves
  cases leaves with
  | whole step => exact ⟨_, calm step, .inl rfl⟩
  | rest step gone before => exact ⟨_, calm step, .inr ⟨gone.dead, before⟩⟩

theorem undisturbed_of (calm : ¬Disturbs (a, d)) {m : Message} (handles : a.act d = .handles m) :
    m.disturbs = false :=
  Bool.eq_false_iff.mpr fun disturbs => calm (Act.isHandling_iff.mpr ⟨m, handles, disturbs⟩)

/-- A deed that handles no message and after which the form lives. -/
theorem Moment.perform?_idle (h : a.perform? d = some b) (idle : ∀ m, a.act d ≠ .handles m)
    (alive : b.form.alive = true) : d ≠ .handle ∧ d ≠ .close := by
  constructor
  · rintro rfl
    obtain ⟨m, rest, mailbox, -⟩ := handle_eq_some h
    exact idle m (by simp [act, mailbox])
  · rintro rfl
    simp only [perform?, Option.ite_none_right_eq_some, Option.some.injEq] at h
    obtain ⟨-, rfl⟩ := h
    cases alive

theorem Moment.perform?_free (h : a.perform? d = some b) (idle : ∀ m, a.act d ≠ .handles m)
    (alive : b.form.alive = true) (free : a.form.pending = none) : b.form.pending = none := by
  obtain ⟨handling, closing⟩ := perform?_idle h idle alive
  obtain ⟨_, _, custody, -⟩ := perform?_custody h handling closing
  exact (congrArg Custody.pending custody).trans free

theorem Form.free_of_coordinator {f g : Form} (same : f.coordinator.pending = g.coordinator.pending)
    (free : g.pending = none) : f.pending = none := by
  simpa [Form.coordinator, free] using same

/-- A form that has nothing to submit stays so. -/
theorem Moment.perform?_idles (h : a.perform? d = some b) (idles : a.Idles)
    (calm : ¬Disturbs (a, d)) (alive : b.form.alive = true) :
    b.Idles ∧ b.form.attempts = a.form.attempts := by
  by_cases handling : ∃ m, a.act d = .handles m
  · obtain ⟨m, handles⟩ := handling
    obtain ⟨last, same | ⟨-, armed, -⟩, ends⟩ :=
      handles_calm h handles idles.free (undisturbed_of calm handles)
    · obtain rfl : b.form.coordinator = last := ends.resolve_right (by simp [alive])
      have attempts := same.attempts
      rw [Form.coordinator_attempts, Form.coordinator_attempts] at attempts
      exact ⟨⟨alive, Form.free_of_coordinator same.pending idles.free,
        (congrArg Debounce.armed same.debounce).trans idles.unarmed⟩, attempts⟩
    · simp [idles.unarmed] at armed
  · have idle : ∀ m, a.act d ≠ .handles m := fun m eq => handling ⟨m, eq⟩
    obtain ⟨noMessage, noEnd⟩ := perform?_idle h idle alive
    refine ⟨⟨alive, perform?_free h idle alive idles.free, ?_⟩, perform?_unattempted h idle⟩
    rcases perform?_debounce h noMessage noEnd with same | ⟨t, -, -, fired⟩
    · rw [same, idles.unarmed]
    · rw [fired]
      exact idles.unarmed

/-- What becomes of a form that waits undisturbed: it ends, it goes on waiting, or it submits when
the time has come. -/
inductive Moment.RunsOut (a : Moment) (due : Nat) (b : Moment) : Prop where
  | ends (dead : b.form.alive = false) (none : b.form.attempts = a.form.attempts)
  | waits (awaits : b.Awaits due) (none : b.form.attempts = a.form.attempts)
  | submits {e : Event} (past : due ≤ a.now) (one : b.form.attempts = e :: a.form.attempts)
      (auto : e.isAuto = true) (tells : e.Tells b.form)
      (done : b.form.alive = true → b.form.debounce.armed = false ∧ b.form.deferred = none)

/-- The wait is over only when its time has come. -/
theorem Moment.Awaits.past (awaits : a.Awaits due)
    (timed : a.form.debounce.Timed a.form.mailbox)
    (notice : .debounceElapsed a.form.debounce.generation ∈ a.form.mailbox) : due ≤ a.now := by
  rcases awaits.timer with set | ⟨-, past⟩
  · -- The timer would tell of the end of the wait a second time.
    have told : 0 < a.form.mailbox.countP (Message.isNotice a.form.debounce.generation) :=
      List.countP_pos_iff.mpr ⟨_, notice, by simp [Message.isNotice]⟩
    have one := timed.one awaits.armed
    simp only [Debounce.outstanding, set, Option.filter, beq_self_eq_true, if_true,
      Option.toList_some, List.length_singleton] at one
    omega
  · exact past

theorem Moment.perform?_awaits (before : Course (.opening c now guard) log a)
    (h : a.perform? d = some b) (awaits : a.Awaits due) (calm : ¬Disturbs (a, d)) :
    a.RunsOut due b := by
  have later := perform?_later h
  have clear : a.form.deferred = none :=
    (orderly before awaits.alive).clear (by simp [Form.coordinator, awaits.free])
  by_cases handling : ∃ m, a.act d = .handles m
  · obtain ⟨m, handles⟩ := handling
    obtain ⟨last, same | ⟨rfl, -, unarmed, deferred, e, made, auto⟩, ends⟩ :=
      handles_calm h handles awaits.free (undisturbed_of calm handles)
    · have few := Form.attempts_within ends
      rw [same.attempts, Form.coordinator_attempts] at few
      have none := (perform?_attempts h).none few.length_le
      cases alive : b.form.alive with
      | false => exact .ends alive none
      | true =>
        obtain rfl : b.form.coordinator = last := ends.resolve_right (by simp [alive])
        refine .waits ⟨alive, Form.free_of_coordinator same.pending awaits.free,
          (congrArg Debounce.armed same.debounce).trans awaits.armed, ?_⟩ none
        have debounce : b.form.debounce = a.form.debounce := same.debounce
        rw [debounce]
        exact awaits.timer.imp_right (And.imp_right fun past => Nat.le_trans past later)
    · have few := Form.attempts_within ends
      have past := awaits.past (before.timed awaits.alive) (mem_of_handles handles)
      rw [made] at few
      rcases perform?_attempts h with none | ⟨e', one, tells⟩
      · refine .ends (Bool.eq_false_iff.mpr fun alive => ?_) none
        obtain rfl : b.form.coordinator = last := ends.resolve_right (by simp [alive])
        rw [Form.coordinator_attempts, none] at made
        exact absurd (congrArg List.length made) (by simp)
      · obtain rfl : e' = e := by
          have all := few.eq_of_length (by rw [one]; rfl)
          exact (List.cons.inj (one.symm.trans all)).1
        refine .submits past one auto tells fun alive => ?_
        obtain rfl : b.form.coordinator = last := ends.resolve_right (by simp [alive])
        exact ⟨unarmed, deferred.trans clear⟩
  · have idle : ∀ m, a.act d ≠ .handles m := fun m eq => handling ⟨m, eq⟩
    have none := perform?_unattempted h idle
    cases alive : b.form.alive with
    | false => exact .ends alive none
    | true =>
      obtain ⟨noMessage, noEnd⟩ := perform?_idle h idle alive
      refine .waits ⟨alive, perform?_free h idle alive awaits.free, ?_, ?_⟩ none
      · rcases perform?_debounce h noMessage noEnd with same | ⟨t, -, -, fired⟩
        · rw [same, awaits.armed]
        · rw [fired]
          exact awaits.armed
      · rcases perform?_debounce h noMessage noEnd with same | ⟨t, timer, past, fired⟩
        · rw [same]
          exact awaits.timer.imp_right (And.imp_right fun past => Nat.le_trans past later)
        · rw [fired]
          refine .inr ⟨rfl, ?_⟩
          rcases awaits.timer with set | ⟨unset, -⟩
          · cases timer.symm.trans set
            exact Nat.le_trans past later
          · cases timer.symm.trans unset

/-! ## Edits -/

/-- After a qualifying edit the form waits anew, and nothing else of the coordinator has changed. -/
theorem Scene.handle_rearms {s s' : Scene} {edit : Message}
    (qualifying : s.form.isQualifying edit = true) (auto : s.form.setup.autoSubmit = true)
    (turn : s.handle now edit = .goesOn s') :
    (∃ record, s'.form.coordinator = { s.form.coordinator.request now with record }) ∧
      s'.form.attempts = s.form.attempts := by
  have attempts {c : Coordinator} (same : s'.form.coordinator = c)
      (none : c.attempts = s.form.attempts) : s'.form.attempts = s.form.attempts := by
    rw [← Form.coordinator_attempts, same, none]
  have requested : (s.form.coordinator.request now).attempts = s.form.attempts := by
    rw [request_attempts, Form.coordinator_attempts]
  cases edit with
  | fieldChanged path value =>
    have waits := (s.handleFieldChanged_ends now path value).goes s' turn
    rw [if_pos auto] at waits
    exact ⟨⟨_, waits⟩, attempts waits requested⟩
  | ask t request =>
    cases request with
    | setValue path value dirty =>
      have waits := (answered_ends s (s.handleSetValue_ends now path value dirty) t).goes s' turn
      have asked : (dirty.getD s.form.setup.autoSubmit && s.form.store.changes path value) = true :=
        qualifying
      rw [if_pos (by rw [Bool.and_assoc, asked, auto, Bool.and_self])] at waits
      exact ⟨⟨_, waits⟩, attempts waits (by rw [answer_attempts, requested])⟩
    | _ => cases qualifying
  | _ => cases qualifying

theorem Moment.perform?_rearms {wait : Nat} (h : a.perform? d = some b) (edit : Qualifies (a, d))
    (auto : a.form.setup.autoSubmit = true) (set : a.form.setup.wait = some wait)
    (free : a.form.pending = none) (alive : b.form.alive = true) :
    b.Awaits (a.now + wait) ∧ b.form.attempts = a.form.attempts := by
  obtain ⟨m, handles, qualifying⟩ := Act.isHandling_iff.mp edit
  obtain ⟨rest, mailbox, turn⟩ := handles_goesOn h handles alive
  obtain ⟨⟨record, rearmed⟩, attempts⟩ := Scene.handle_rearms
    (s := a.scene.update fun f => { f with mailbox := rest }) qualifying auto turn
  have asked : (a.scene.update fun f => { f with mailbox := rest }).form.coordinator.setup.wait =
      some wait := set
  have debounce := congrArg Coordinator.debounce rearmed
  have pending := congrArg Coordinator.pending rearmed
  simp only [request, asked] at debounce
  simp only [request_pending] at pending
  have debounce : b.form.debounce = _ := debounce
  refine ⟨⟨alive, Form.free_of_coordinator pending free, ?_, .inl ?_⟩, attempts⟩
  · rw [debounce]
  · rw [debounce]

end

end LiveForm
