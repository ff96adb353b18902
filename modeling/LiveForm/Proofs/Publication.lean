import LiveForm.Proofs.Display
import LiveForm.Proofs.Flight

/-!
# What is published

What a form publishes is what it would tell if it were asked for its state, and the observer is
called for each change.

* `Form.InStep`: what is published is the state of the form;
* `Scene.handle_inStep`: so it is after each message, if it was so before;
* `Moment.perform?_view`: other deeds leave both alone;
* `publication_in_step`: so it is on every course, and the observer is called for each change.
-/

set_option autoImplicit false

namespace LiveForm

/-! ## The state and what is published of it -/

/-- What is published is the state. -/
def Form.InStep (f : Form) : Prop := f.published = f.currentSnapshot

/-- A turn that goes on leaves the published state in step. -/
def Turn.InStep (t : Turn) : Prop := ∀ s, t = .goesOn s → s.form.InStep

theorem Turn.InStep.goesOn {s : Scene} (h : s.form.InStep) : (Turn.goesOn s).InStep := by
  rintro _ ⟨⟩
  exact h

/-- It is the last act that counts. -/
theorem Turn.InStep.last {t : Turn} {act : Scene → Turn} (next : ∀ s, (act s).InStep) :
    (t.andThen act).InStep := by
  intro s eq
  obtain ⟨s', -, done⟩ := Turn.andThen_eq_goesOn eq
  exact next s' s done

theorem Turn.InStep.andThen {t : Turn} {act : Scene → Turn} (h : t.InStep)
    (next : ∀ s, s.form.InStep → (act s).InStep) : (t.andThen act).InStep := by
  intro s eq
  obtain ⟨s', before, done⟩ := Turn.andThen_eq_goesOn eq
  exact next s' (h s' before) s done

/-- A form that rests is idle, scheduled or submitting. -/
theorem Form.phase_unsettled (f : Form) : f.phase ≠ .settledOk ∧ f.phase ≠ .settledError := by
  unfold phase
  split
  · exact ⟨nofun, nofun⟩
  · split <;> exact ⟨nofun, nofun⟩

namespace Scene

variable {s : Scene} {now : Nat}

theorem observe_inStep (shown : Snapshot) (h : s.form.InStep) : (s.observe shown).InStep := by
  unfold observe
  split
  · exact .goesOn h
  · dsimp only
    split
    · rintro _ ⟨⟩
    · exact .goesOn h

theorem publish_inStep {phase : FormPhase} (same : phase = s.form.phase) :
    (s.publish phase).InStep := by
  subst same
  unfold publish
  dsimp only
  split
  · rename_i still
    exact .goesOn still.symm
  · have stepped : (s.update fun f => { f with published := f.currentSnapshot }).form.InStep := rfl
    exact observe_inStep _ stepped

theorem publishCurrent_inStep (s : Scene) : s.publishCurrent.InStep := publish_inStep rfl

theorem beginCycle_inStep (trigger : Trigger) (waiters : List Ticket) :
    (s.beginCycle trigger waiters).InStep := by
  refine Turn.InStep.andThen (publish_inStep ?_) fun s' h => .goesOn h
  exact (if_pos rfl).symm

theorem startSubmission_inStep (trigger : Trigger) (waiters : List Ticket) :
    (s.startSubmission trigger waiters).InStep := by
  unfold startSubmission
  dsimp only
  split
  · exact beginCycle_inStep trigger waiters
  · exact .last fun s' => .last publishCurrent_inStep

theorem defer_inStep (trigger : Trigger) (waiters : List Ticket) (h : s.form.InStep) :
    (s.defer trigger waiters).form.InStep := by
  unfold defer update
  dsimp only
  split <;> exact h

theorem handleSettled_inStep (cycle : Nat) (failure : Option SubmitError) (h : s.form.InStep) :
    (s.handleSettled now cycle failure).InStep := by
  unfold handleSettled
  split
  · exact .goesOn h
  · split
    · exact .goesOn h
    · refine .last fun s₁ => .last fun s₂ => ?_
      split
      · exact startSubmission_inStep _ _
      · exact publishCurrent_inStep s₂

theorem handleRequest_inStep (ticket : Ticket) (request : Request) (h : s.form.InStep) :
    (s.handleRequest now ticket request).InStep := by
  cases request with
  | register path field =>
    unfold handleRequest
    dsimp only
    split <;> exact .goesOn h
  | setValue => exact .andThen (.last fun s' => publishCurrent_inStep _) fun s' h => .goesOn h
  | reset => exact .andThen (publishCurrent_inStep _) fun s' h => .goesOn h
  | submit =>
    show (s.handleSubmit ticket).InStep
    unfold handleSubmit
    split
    · exact .goesOn (defer_inStep _ _ h)
    · exact startSubmission_inStep _ _
  | _ => exact .goesOn h

theorem handle_inStep (m : Message) (h : s.form.InStep) : (s.handle now m).InStep := by
  cases m with
  | ask ticket request => exact handleRequest_inStep ticket request h
  | fieldChanged => exact .last fun s' => publishCurrent_inStep _
  | settled cycle failure => exact handleSettled_inStep cycle failure h
  | loaded => exact .last publishCurrent_inStep
  | debounceElapsed generation =>
    show (s.handleDebounceElapsed generation).InStep
    unfold handleDebounceElapsed
    split
    · split
      · exact publishCurrent_inStep _
      · exact startSubmission_inStep _ _
    · exact .goesOn h
  | hideLoader generation =>
    show (s.handleHideLoader generation).InStep
    unfold handleHideLoader
    split
    · exact publishCurrent_inStep _
    · exact .goesOn h

end Scene

/-! ## Along a course -/

section

variable {a b m : Moment} {d : Deed} {log : Log}

/-- What is to be seen of a form: its state, and the display. -/
def Form.view (f : Form) : Snapshot × Display := (f.currentSnapshot, f.display)

theorem Form.post_view (f : Form) (m : Message) : (f.post m).view = f.view := by
  unfold Form.post
  split <;> rfl

/-- Only messages and the end of the form change what is to be seen. -/
theorem Moment.perform?_view (h : a.perform? d = some b) (handling : d ≠ .handle)
    (closing : d ≠ .close) : b.form.view = a.form.view := by
  cases d with
  | handle => exact absurd rfl handling
  | close => exact absurd rfl closing
  | pass | stop | share =>
    cases h
    rfl
  | change =>
    cases h
    exact Form.post_view _ _
  | ask | straggle =>
    simp only [perform?, Option.ite_none_right_eq_some, Option.some.injEq] at h
    obtain ⟨_, rfl⟩ := h
    exact Form.post_view _ _
  | startCall | endCall =>
    simp only [perform?, Scene.startCall?, Scene.endCallAt?, Option.map_eq_some_iff] at h
    obtain ⟨_, ⟨c, _, rfl⟩, rfl⟩ := h
    rfl
  | finishRun run =>
    simp only [perform?, Scene.finishRunAt?, Option.map_eq_some_iff] at h
    obtain ⟨_, ⟨r, _, rfl⟩, rfl⟩ := h
    exact Form.post_view _ _
  | fireDebounce | fireHide =>
    simp only [perform?, Scene.fireDebounce?, Scene.fireHide?, Option.map_eq_some_iff] at h
    obtain ⟨_, ⟨t, _, rfl⟩, rfl⟩ := h
    exact Form.post_view _ _
  | finishLoad =>
    simp only [perform?, Scene.finishLoad?, Option.map_eq_some_iff] at h
    obtain ⟨_, ⟨l, _, rfl⟩, rfl⟩ := h
    cases l.outcome with
    | panics => rfl
    | values | fails => exact Form.post_view _ _

/-- A form that lives on is in step after each deed. -/
theorem Moment.perform?_inStep (h : a.perform? d = some b) (alive : b.form.alive = true)
    (before : a.form.InStep) : b.form.InStep := by
  by_cases handling : d = .handle
  · subst handling
    obtain ⟨m, rest, -, rfl⟩ := handle_eq_some h
    have before : (a.scene.update fun f => { f with mailbox := rest }).form.InStep := before
    exact Scene.handle_inStep m before _ (land_alive alive)
  · by_cases closing : d = .close
    · subst closing
      simp only [perform?, Option.ite_none_right_eq_some, Option.some.injEq] at h
      obtain ⟨-, rfl⟩ := h
      cases alive
    · have view := perform?_view h handling closing
      have published : b.form.published = a.form.published :=
        congrArg (fun v => v.2.published) view
      rw [Form.InStep, published, show b.form.currentSnapshot = _ from congrArg Prod.fst view]
      exact before

/-- Deeds that handle no message publish nothing. -/
theorem Moment.perform?_unshown (h : a.perform? d = some b) (handling : d ≠ .handle) :
    b.form.display = a.form.display := by
  by_cases closing : d = .close
  · subst closing
    simp only [perform?, Option.ite_none_right_eq_some, Option.some.injEq] at h
    obtain ⟨-, rfl⟩ := h
    exact a.scene.releaseToken_display
  · exact congrArg Prod.snd (perform?_view h handling closing)

/-- A message changes the display as its publications do. -/
theorem Moment.perform?_handle_display (h : a.perform? .handle = some b) :
    ∃ message rest xs, a.form.mailbox = message :: rest ∧
      Turn.Publishes (a.scene.update fun f => { f with mailbox := rest }) xs
        ((a.scene.update fun f => { f with mailbox := rest }).handle a.now message) ∧
      b.form.display = xs.foldl .show a.form.display ∧
      (a.form.published :: xs).IsChain (· ≠ ·) := by
  obtain ⟨message, rest, mailbox, rfl⟩ := handle_eq_some h
  obtain ⟨xs, publishes⟩ := Scene.handle_shows (a.scene.update fun f => { f with mailbox := rest })
    a.now message
  obtain ⟨display, chain⟩ := publishes.display
  exact ⟨message, rest, xs, mailbox, publishes, (Turn.land_display _).trans display, chain⟩

theorem Moment.perform?_faithful (h : a.perform? d = some b) (before : a.form.display.Faithful) :
    b.form.display.Faithful := by
  by_cases handling : d = .handle
  · subst handling
    obtain ⟨_, _, xs, -, -, display, chain⟩ := perform?_handle_display h
    exact display ▸ before.foldl chain
  · exact perform?_unshown h handling ▸ before

theorem Moment.perform?_watched (h : a.perform? d = some b) :
    b.form.display.watched = a.form.display.watched := by
  by_cases handling : d = .handle
  · subst handling
    obtain ⟨_, _, xs, -, -, display, -⟩ := perform?_handle_display h
    rw [display, Display.foldl_show_watched]
  · rw [perform?_unshown h handling]

/-- A new form shows itself at once. -/
theorem Moment.opening_display (c : FormConfig) (now : Nat) (guard : UnloadGuard) :
    (Moment.opening c now guard).form.display.watched = c.observer.isSome ∧
      (Moment.opening c now guard).form.display.Faithful := by
  obtain ⟨xs, publishes⟩ := Scene.publishCurrent_shows ⟨Form.make c now, guard⟩
  obtain ⟨display, chain⟩ := publishes.display
  have display := (Turn.land_display _).trans display
  have first : (Form.make c now).display.Faithful := fun _ => ⟨rfl, .singleton _⟩
  rw [opening, form, display]
  exact ⟨Display.foldl_show_watched _ _, first.foldl chain⟩

theorem Course.in_step (course : Course a log m) (alive : m.form.alive = true)
    (first : a.form.alive = true → a.form.InStep) : m.form.InStep := by
  induction course with
  | here => exact first alive
  | next _ done ih =>
    exact Moment.perform?_inStep done alive (ih (Moment.perform?_alive done alive))

end

/-- A form that asks for its state is told what is published. -/
theorem Form.InStep.told {m b : Moment} {t : Ticket} (h : m.form.InStep)
    (handles : m.act .handle = .handles (.ask t .getState)) (done : m.perform? .handle = some b) :
    b.form.reply? t = some (.state m.form.published) := by
  obtain ⟨rest, mailbox, done'⟩ := Moment.perform?_of_handles handles
  obtain rfl := Option.some.inj (done.symm.trans done')
  rw [h]
  exact if_pos rfl

/-! ## The main result -/

/-- What a form that lives on publishes is the state that it tells when it is asked, and so a phase
that does not rest is never left published. The observer is called for each change of what is
published, from the blank state on, in their order, and never twice in a row with the same: nothing
is published but by messages, and each calls it with what it publishes, one after another. -/
theorem publication_in_step {c : FormConfig} {now : Nat} {guard : UnloadGuard} {m : Moment} {log : Log}
    (course : Course (.opening c now guard) log m) :
    (m.form.alive = true → m.form.published = m.form.currentSnapshot ∧
      m.form.published.phase ≠ .settledOk ∧ m.form.published.phase ≠ .settledError ∧
      ∀ t b, m.act .handle = .handles (.ask t .getState) → m.perform? .handle = some b →
        b.form.reply? t = some (.state m.form.published)) ∧
    (c.observer.isSome = true →
      (m.form.shown ++ [Snapshot.blank]).head? = some m.form.published ∧
      (m.form.shown ++ [Snapshot.blank]).IsChain (· ≠ ·)) ∧
    (∀ d b, d ≠ .handle → m.perform? d = some b →
      b.form.published = m.form.published ∧ b.form.shown = m.form.shown) ∧
    ∀ b, m.perform? .handle = some b → ∃ message rest xs,
      m.form.mailbox = message :: rest ∧
      Turn.Publishes (m.scene.update fun f => { f with mailbox := rest }) xs
        ((m.scene.update fun f => { f with mailbox := rest }).handle m.now message) ∧
      (m.form.published :: xs).IsChain (· ≠ ·) ∧ b.form.published = xs.getLastD m.form.published ∧
      (c.observer.isSome = true → b.form.shown = xs.reverse ++ m.form.shown) := by
  have opening := Moment.opening_display c now guard
  have watched : m.form.display.watched = c.observer.isSome :=
    course.keeps (P := fun m => m.form.display.watched = c.observer.isSome)
      (fun done same => (Moment.perform?_watched done).trans same) opening.1
  refine ⟨fun alive => ?_, fun observed => ?_, fun d b other done => ?_, fun b done => ?_⟩
  · have step : m.form.InStep := course.in_step alive fun living =>
      Scene.publishCurrent_inStep _ _ (Moment.land_alive living)
    have phase : m.form.published.phase = m.form.phase := congrArg Snapshot.phase step
    rw [phase]
    exact ⟨step, m.form.phase_unsettled.1, m.form.phase_unsettled.2, fun t b => step.told⟩
  · have faithful : m.form.display.Faithful :=
      course.keeps (P := fun m => m.form.display.Faithful) Moment.perform?_faithful opening.2
    exact faithful (watched.trans observed)
  · have same := Moment.perform?_unshown done other
    exact ⟨congrArg Display.published same, congrArg Display.shown same⟩
  · obtain ⟨message, rest, xs, mailbox, publishes, display, chain⟩ :=
      Moment.perform?_handle_display done
    refine ⟨message, rest, xs, mailbox, publishes, chain, ?_, fun observed => ?_⟩
    · exact (congrArg Display.published display).trans (Display.foldl_show_published _ _)
    · have shown := congrArg Display.shown display
      rw [Display.foldl_show_shown _ _ (watched.trans observed)] at shown
      exact shown

/-- A submission that succeeds is seen under way, settled, and over. -/
theorem publication_in_step_submit :
    ∃ log m, Course (.opening { FormConfig.sample ⟨false, none⟩ .emptyObject with
        observer := some .steady } 0 .new) log m ∧
      m.form.published = m.form.currentSnapshot ∧
      m.form.shown.map Snapshot.phase = [.idle, .settledOk, .submitting] ∧
      m.form.shown.head? = some m.form.published ∧ m.form.shown.IsChain (· ≠ ·) := by
  obtain ⟨log, m, course, -, passed⟩ := Moment.course_of_test
    (.opening { FormConfig.sample ⟨false, none⟩ .emptyObject with observer := some .steady } 0 .new)
    [.ask 0 .submit, .handle, .startCall 0 0, .pass 5, .endCall 0 0, .finishRun 0, .handle]
    (fun _ m => m.form.alive &&
      decide (m.form.shown.map Snapshot.phase = [.idle, .settledOk, .submitting]))
    (by decide +kernel)
  simp only [Bool.and_eq_true, decide_eq_true_eq] at passed
  obtain ⟨alive, phases⟩ := passed
  obtain ⟨rests, calls, -⟩ := publication_in_step course
  obtain ⟨head, chain⟩ := calls rfl
  refine ⟨log, m, course, (rests alive).1, phases, ?_, chain.left_of_append⟩
  cases shown : m.form.shown with
  | nil => simp [shown] at phases
  | cons x rest =>
    rw [shown] at head
    exact head

end LiveForm
