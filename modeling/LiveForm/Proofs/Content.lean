import LiveForm.Proofs.Coordinator.Step

/-!
# What an attempt has seen

An attempt checks the values of a form, and one that begins a submission keeps a copy of them. This
is done in one go, and what the form does besides leaves the values alone.

* `Form.content` is what an attempt reads of a form;
* `Turn.Keeps`: acts that show and tell leave it alone;
* `Moment.perform?_attempts`: a deed makes one attempt at most, and when it is done the form still
  has the content that the attempt has seen.
-/

set_option autoImplicit false

namespace LiveForm

open Coordinator

/-- The values of a form, and the rules they are checked by. -/
structure Content where
  store : Store
  rules : List (FieldPath × List Rule)

def Form.content (f : Form) : Content :=
  ⟨f.store, f.registry.fields.map fun (path, field) => (path, field.rules)⟩

/-- The failures of the fields as they are. -/
def Form.currentErrors (f : Form) : FieldErrors := f.registry.validate f.store.values

def Content.errors (c : Content) : FieldErrors := validateFields c.rules c.store.values

theorem Form.content_errors (f : Form) : f.content.errors = f.currentErrors := rfl

/-- A turn leaves the content of the form alone. -/
def Turn.Keeps (t : Turn) (s : Scene) : Prop := t.scene.form.content = s.form.content

theorem Turn.Keeps.andThen {t : Turn} {s : Scene} {act : Scene → Turn} (h : t.Keeps s)
    (next : ∀ s', (act s').Keeps s') : (t.andThen act).Keeps s := by
  cases t with
  | goesOn s' => exact (next s').trans h
  | falls => exact h

namespace Scene

variable (s : Scene) (now : Nat)

theorem observe_keeps (shown : Snapshot) : (s.observe shown).Keeps s := by
  unfold observe Turn.Keeps
  split
  · rfl
  · dsimp only
    split <;> rfl

theorem publish_keeps (phase : FormPhase) : (s.publish phase).Keeps s := by
  unfold publish
  dsimp only
  split
  · rfl
  · exact observe_keeps _ _

theorem reportInvalid_keeps (errors : FieldErrors) : (s.reportInvalid errors).Keeps s := by
  unfold reportInvalid Turn.Keeps
  split
  · rfl
  · dsimp only
    split <;> rfl

theorem answerAll_content (tickets : List Ticket) (reply : Reply) :
    (s.answerAll tickets reply).form.content = s.form.content := by
  rw [answerAll_form]
  rfl

theorem releaseToken_content : s.releaseToken.form.content = s.form.content := by
  unfold releaseToken
  split <;> rfl

theorem scheduleLoaderHide_content :
    (s.scheduleLoaderHide now).form.content = s.form.content := by
  unfold scheduleLoaderHide update
  dsimp only
  split <;> rfl

/-- Counting calls changes no rules. -/
theorem countCalls_content (f : Form) : f.countCalls.content = f.content := by
  simp only [Form.content, Form.countCalls, List.map_map, Content.mk.injEq, true_and]
  apply List.map_congr_left
  intro x _
  dsimp only [Function.comp]
  split <;> rfl

theorem beginCycle_keeps (trigger : Trigger) (waiters : List Ticket) :
    (s.beginCycle trigger waiters).Keeps s := by
  unfold beginCycle
  refine Turn.Keeps.andThen (.trans (publish_keeps _ _) ?_) fun s' => rfl
  exact countCalls_content s.form

theorem halt_keeps (trigger : Trigger) (waiters : List Ticket) (errors : FieldErrors) :
    (s.halt trigger waiters errors).Keeps s := by
  unfold halt
  refine Turn.Keeps.andThen (reportInvalid_keeps _ _) ?_
  intro s'
  refine Turn.Keeps.andThen (.trans (publish_keeps _ _) ?_) fun s'' => publish_keeps _ _
  exact answerAll_content _ _ _

theorem startSubmission_keeps (trigger : Trigger) (waiters : List Ticket) :
    (s.startSubmission trigger waiters).Keeps s := by
  unfold startSubmission
  dsimp only
  split
  · exact beginCycle_keeps _ _ _
  · exact halt_keeps _ _ _ _

end Scene

/-! ## One attempt at most -/

/-- What an attempt says of the form after the deed it is part of. -/
def Event.Tells (f : Form) : Event → Prop
  | .began cycle trigger => f.currentErrors = [] ∧ (f.alive = true → ∃ p, f.pending = some p ∧
      p.cycle = cycle ∧ p.trigger = trigger ∧ p.values = f.store.values ∧
      p.dirtyValues = f.store.dirtyValues)
  | .halted _ errors => errors = f.currentErrors ∧ errors ≠ []
  | _ => True

/-- Between two forms there is no attempt, or one that tells how things are. -/
def Form.AttemptsOnce (f g : Form) : Prop :=
  g.attempts = f.attempts ∨ ∃ e, g.attempts = e :: f.attempts ∧ e.Tells g

theorem Form.AttemptsOnce.of_eq {f f' g : Form} (h : f'.AttemptsOnce g)
    (same : f'.attempts = f.attempts) : f.AttemptsOnce g := by
  rwa [AttemptsOnce, same] at h

/-- Attempts come last in a turn: what goes before adds none. -/
theorem Form.AttemptsOnce.andThen {f : Form} {t : Turn} {act : Scene → Turn}
    (quiet : t.land.form.attempts = f.attempts)
    (next : ∀ s : Scene, s.form.AttemptsOnce (act s).land.form) :
    f.AttemptsOnce (t.andThen act).land.form := by
  cases t with
  | goesOn s => exact (next s).of_eq quiet
  | falls s => exact .inl quiet

namespace Turn.Ends

variable {t : Turn} {s : Scene} {Q : Coordinator → Prop}

theorem land_history (t : Turn) : t.land.form.history = t.scene.form.history := by
  cases t with
  | goesOn => rfl
  | falls s => exact s.releaseToken_history

theorem land_content (t : Turn) : t.land.form.content = t.scene.form.content := by
  cases t with
  | goesOn => rfl
  | falls s => exact s.releaseToken_content

theorem remembers_attempts (h : t.Ends s Q) : s.form.attempts <:+ t.land.form.attempts := by
  rw [Form.attempts, Form.attempts, land_history]
  exact h.remembers.filter _

/-- Wherever a turn ends, its attempts are among those of a turn that does not fall. -/
theorem attempts_within (h : t.Ends s Q) :
    ∃ c, Q c ∧ t.land.form.attempts <:+ c.attempts := by
  cases t with
  | goesOn s' => exact ⟨_, h.goes s' rfl, by rw [Form.coordinator_attempts]; exact List.suffix_rfl⟩
  | falls s' =>
    obtain ⟨c, hc, before⟩ := h.falls s' rfl
    refine ⟨c, hc, ?_⟩
    have more : s'.form.coordinator.attempts <:+ c.attempts := before.record.filter _
    have same := land_history (.falls s')
    rw [Form.coordinator_attempts] at more
    rw [Form.attempts, same]
    exact more

/-- A turn without an attempt. -/
theorem quiet (h : t.Ends s Q) (none : ∀ c, Q c → c.attempts = s.form.attempts) :
    t.land.form.attempts = s.form.attempts := by
  obtain ⟨c, hc, within⟩ := h.attempts_within
  exact ((none c hc ▸ within).eq_of_length_le h.remembers_attempts.length_le)

/-- A turn with one attempt, unless it falls before. -/
theorem once (h : t.Ends s Q) {e : Event} (one : ∀ c, Q c → c.attempts = e :: s.form.attempts) :
    t.land.form.attempts = s.form.attempts ∨ t.land.form.attempts = e :: s.form.attempts := by
  obtain ⟨c, hc, within⟩ := h.attempts_within
  rcases List.suffix_cons_iff.mp (one c hc ▸ within) with all | none
  · exact .inr all
  · exact .inl (none.eq_of_length_le h.remembers_attempts.length_le)

end Turn.Ends

namespace Scene

variable (s : Scene) (now : Nat)

theorem publish_attempts (phase : FormPhase) :
    (s.publish phase).land.form.attempts = s.form.attempts :=
  (s.publish_ends phase).quiet fun c eq => by rw [eq, Form.coordinator_attempts]

theorem startSubmission_attempts (trigger : Trigger) (waiters : List Ticket) :
    s.form.AttemptsOnce (s.startSubmission trigger waiters).land.form := by
  have keeps : (s.startSubmission trigger waiters).land.form.content = s.form.content :=
    (Turn.Ends.land_content _).trans (s.startSubmission_keeps trigger waiters)
  have errors : (s.startSubmission trigger waiters).land.form.currentErrors =
      s.form.currentErrors := by
    rw [← Form.content_errors, ← Form.content_errors, keeps]
  have store : (s.startSubmission trigger waiters).land.form.store = s.form.store :=
    congrArg Content.store keeps
  by_cases valid : s.form.currentErrors.isEmpty = true
  · have begins : s.startSubmission trigger waiters = s.beginCycle trigger waiters :=
      if_pos valid
    have ends := s.beginCycle_ends trigger waiters
    rw [← begins] at ends
    have begun := s.form.coordinator.begin_attempts (s.form.nextPending trigger waiters)
      (s.form.nextRun trigger)
    rw [Form.coordinator_attempts] at begun
    rcases ends.once (fun c eq => eq ▸ begun) with none | one
    · exact .inl none
    · refine .inr ⟨_, one, errors.trans (List.isEmpty_iff.mp valid), ?_⟩
      intro alive
      have flight := congrArg Coordinator.pending (ends.goes _ (Moment.land_alive alive))
      obtain ⟨p, pending, same⟩ := Option.map_eq_some_iff.mp flight
      exact ⟨p, pending, congrArg Pending.cycle same, (congrArg Pending.trigger same :),
        (congrArg Pending.values same).trans (congrArg Store.values store).symm,
        (congrArg Pending.dirtyValues same).trans (congrArg Store.dirtyValues store).symm⟩
  · have halts : s.startSubmission trigger waiters =
        s.halt trigger waiters s.form.currentErrors := if_neg valid
    have ends := s.halt_ends trigger waiters s.form.currentErrors
    rw [← halts] at ends
    have halted := s.form.coordinator.halt_attempts trigger waiters s.form.currentErrors
    rw [Form.coordinator_attempts] at halted
    rcases ends.once (fun c eq => eq ▸ halted) with none | one
    · exact .inl none
    · exact .inr ⟨_, one, errors.symm, fun none => valid (by simp [none])⟩

/-- The settlement of a submission is no attempt, but the next one may follow at once. -/
theorem handleSettled_attempts (cycle : Nat) (failure : Option SubmitError) :
    s.form.AttemptsOnce (s.handleSettled now cycle failure).land.form := by
  unfold handleSettled
  split
  · exact .inl rfl
  · rename_i p pending
    split
    · exact .inl rfl
    · dsimp only
      generalize started : (s.update fun f => { f with pending := none, changedDuringSubmit := [] }).log
        (.settled cycle failure) = s₁
      have same : s₁.form.attempts = s.form.attempts := by subst started; rfl
      refine .andThen ?_ fun s₂ => .andThen ?_ fun s₃ => ?_
      · rw [← same]
        cases failure with
        | none =>
          refine (s₁.acknowledge_ends p s.form.changedDuringSubmit).quiet ?_
          intro c eq
          rw [eq, answer_attempts, Form.coordinator_attempts]
        | some e =>
          refine (s₁.reject_ends p e).quiet ?_
          intro c eq
          rw [eq, answer_attempts, Form.coordinator_attempts]
      · exact (publish_attempts _ _).trans (by simp [Form.attempts])
      · split
        · exact (startSubmission_attempts _ _ _).of_eq rfl
        · exact .inl (publish_attempts _ _)

theorem handle_attempts (m : Message) : s.form.AttemptsOnce (s.handle now m).land.form := by
  by_cases aside : (∀ t, m ≠ .ask t .submit) ∧ (∀ g, m ≠ .debounceElapsed g) ∧
      ∀ k failure, m ≠ .settled k failure
  · obtain ⟨submit, elapsed, settled⟩ := aside
    refine .inl ((s.handle_ends now m).quiet ?_)
    intro c handled
    rw [← Form.coordinator_attempts]
    exact handled.no_attempt submit elapsed settled
  · cases m with
    | ask t request =>
      cases request with
      | submit =>
        show s.form.AttemptsOnce (s.handleSubmit t).land.form
        unfold handleSubmit
        split
        · exact .inl (by simp [Form.attempts, Turn.land])
        · exact s.cancelDebounce.startSubmission_attempts .manual [t]
      | _ => simp at aside
    | debounceElapsed g =>
      show s.form.AttemptsOnce (s.handleDebounceElapsed g).land.form
      unfold handleDebounceElapsed
      split
      · split
        · exact .inl ((publish_attempts _ _).trans (by simp [Form.attempts, cancelDebounce, update]))
        · exact s.cancelDebounce.startSubmission_attempts .auto []
      · exact .inl rfl
    | settled k failure => exact s.handleSettled_attempts now k failure
    | _ => simp at aside

end Scene

namespace Moment

variable {a b : Moment} {d : Deed}

theorem post_attempts (f : Form) (m : Message) : (f.post m).attempts = f.attempts := by
  unfold Form.post
  split <;> rfl

theorem perform?_attempts (h : a.perform? d = some b) : a.form.AttemptsOnce b.form := by
  cases d with
  | handle =>
    obtain ⟨m, rest, _, rfl⟩ := handle_eq_some h
    exact (Scene.handle_attempts (a.scene.update fun f => { f with mailbox := rest }) a.now m).of_eq rfl
  | ask | straggle =>
    simp only [perform?, Option.ite_none_right_eq_some, Option.some.injEq] at h
    obtain ⟨_, rfl⟩ := h
    exact .inl (post_attempts _ _)
  | change =>
    cases h
    exact .inl (post_attempts _ _)
  | close =>
    simp only [perform?, Option.ite_none_right_eq_some, Option.some.injEq] at h
    obtain ⟨_, rfl⟩ := h
    exact .inl (congrArg (List.filter Event.isAttempt) a.scene.releaseToken_history)
  | pass | stop | share =>
    cases h
    exact .inl rfl
  | startCall | endCall =>
    simp only [perform?, Scene.startCall?, Scene.endCallAt?, Option.map_eq_some_iff] at h
    obtain ⟨_, ⟨c, _, rfl⟩, rfl⟩ := h
    exact .inl rfl
  | finishRun | fireDebounce | fireHide =>
    simp only [perform?, Scene.finishRunAt?, Scene.fireDebounce?, Scene.fireHide?,
      Option.map_eq_some_iff] at h
    obtain ⟨_, ⟨_, _, rfl⟩, rfl⟩ := h
    exact .inl (post_attempts _ _)
  | finishLoad =>
    simp only [perform?, Scene.finishLoad?, Option.map_eq_some_iff] at h
    obtain ⟨_, ⟨l, _, rfl⟩, rfl⟩ := h
    cases l.outcome with
    | panics => exact .inl rfl
    | values | fails => exact .inl (post_attempts _ _)

end Moment

end LiveForm
