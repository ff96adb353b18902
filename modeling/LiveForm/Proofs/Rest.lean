import LiveForm.Proofs.Coherence
import LiveForm.Proofs.Submits

/-!
# A form at rest

When the mailbox is empty and no run or timer is left, a form that lives has nothing more to do, and
nothing is left of what it has done.

* `Standing.Tidy`: a token is held for the submission in flight and for nothing else, and a loader
  that shows will be hidden by the end of that, by a timer, or by a notice;
* `Stage.Tidies`: so it is at all stages but between the end of a submission and its clearing away;
* `rest_leaves_nothing`: with the timers and flights of the coordinator, what is left at rest.
-/

set_option autoImplicit false

namespace LiveForm

/-- The loader is to be hidden by its timer, or by a notice in the mailbox. -/
def Standing.Dims (st : Standing) : Prop :=
  (∃ due, st.loader.hideTimer = some ⟨due, st.loader.generation⟩) ∨
    st.loader.generation ∈ st.notices

structure Standing.Tidy (st : Standing) : Prop where
  token : st.held = st.flying
  loader : st.loader.visible = true → st.flying = true ∨ st.Dims

/-- Between the end of a submission and its clearing away its token is still held. -/
def Stage.Tidies (st : Standing) : Stage → Prop
  | .landed _ | .judged _ => True
  | _ => st.Tidy

namespace Standing

variable {disabled : Bool} {stage stage' : Stage} {st : Standing} {phase : FormPhase} {x : Snapshot}

theorem Tidy.publish (h : st.Tidy) (x : Snapshot) : (st.publish x).Tidy := by
  unfold Standing.publish
  split
  · exact h
  · exact ⟨h.token, h.loader⟩

/-- Snapshots are shown only where all is tidy. -/
theorem tidies_shows (h : stage.Tidies st) (next : stage.Next st.flying phase stage') :
    stage'.Tidies (st.publish x) := by
  cases next <;> exact Tidy.publish h x

theorem tidies_move {a b : Stage × Standing} (move : Move a b)
    (coherent : a.2.Coherent disabled a.1) (h : a.1.Tidies a.2) : b.1.Tidies b.2 := by
  cases move with
  | notes | resets => exact ⟨h.token, h.loader⟩
  | @writes stage _ _ writing =>
    cases stage with
    | resting => exact ⟨h.token, h.loader⟩
    | landed => trivial
    | _ => cases writing
  | hears notice idle =>
    refine ⟨h.token, fun shows => ?_⟩
    rcases h.loader shows with flying | timer | among
    · exact .inl flying
    · exact .inr (.inl timer)
    · rw [notice] at among
      rcases List.mem_cons.mp among with same | rest
      · exact .inl (idle.resolve_left (not_not_intro same.symm))
      · exact .inr (.inr rest)
  | hides => exact ⟨h.token, by rintro ⟨⟩⟩
  | begins => exact ⟨rfl, fun _ => .inl rfl⟩
  | @halts stage st _ _ free =>
    have tidy : st.Tidy := by
      cases stage with
      | resting => exact h
      | shown => exact h
      | _ => cases free
    exact ⟨tidy.token, tidy.loader⟩
  | lands | judges => trivial
  | clears dims =>
    refine ⟨coherent.fits.1.symm, fun shows => ?_⟩
    rcases dims with hidden | timer
    · rw [hidden] at shows
      cases shows
    · exact .inr (.inl timer)
  | shows next => exact tidies_shows h next

theorem Tidy.drift {st' : Standing} (drifts : st.Drifts true st') (h : st.Tidy) : st'.Tidy := by
  cases drifts with
  | still => exact h
  | told =>
    refine ⟨h.token, fun shows => ?_⟩
    rcases h.loader shows with flying | timer | among
    · exact .inl flying
    · exact .inr (.inl timer)
    · exact .inr (.inr (List.mem_append_left _ among))
  | fires _ timer =>
    refine ⟨h.token, fun shows => ?_⟩
    rcases h.loader shows with flying | ⟨due, current⟩ | among
    · exact .inl flying
    · rw [timer] at current
      cases current
      exact .inr (.inr (List.mem_append_right _ List.mem_cons_self))
    · exact .inr (.inr (List.mem_append_left _ among))
  | lost dead => cases dead

end Standing

/-! ## Along a course -/

section

variable {c : FormConfig} {now : Nat} {guard : UnloadGuard} {m n : Moment} {d : Deed}
  {log earlier later : Log}

theorem Course.tidy (course : Course (.opening c now guard) log m) (alive : m.form.alive = true) :
    m.form.standing.Tidy := by
  have first : Stage.Tidies (Form.make c now).standing .resting := ⟨rfl, by rintro ⟨⟩⟩
  have upholds := course.upholds
    (P := fun stage st => st.Coherent c.disableLoader stage ∧ stage.Tidies st)
    (fun move before => ⟨before.1.move move, Standing.tidies_move move before.1 before.2⟩)
    (fun drifts before => ⟨before.1.drift drifts, Standing.Tidy.drift drifts before.2⟩)
    ⟨Form.make_coherent c now, first⟩
  exact (upholds.living alive).2

/-- A submit that has been handled is with those who wait, or it has been answered, once. -/
theorem Course.submit_placed (course : Course (.opening c now guard) (later ++ (n, d) :: earlier) m)
    (alive : m.form.alive = true) {t : Ticket} (handles : n.act d = .handles (.ask t .submit)) :
    m.form.waiters.count t + m.form.nextWaiters.count t + m.form.answersTo t = 1 := by
  obtain ⟨b, before, done, after⟩ := course.split
  have once := (ticketed course).once t
  have first := ((Moment.perform?_leaves done).step (after.alive_before alive)).placed t
  have kept := after.placed alive t
  have placed := m.form.coordinator_placed t
  rw [handles] at first
  simp only [Act.passed, Message.ticket?, Option.toList_some, List.count_singleton_self] at first
  omega

/-- No wait is on once its timer and the mailbox are empty. -/
theorem Course.unarmed (course : Course (.opening c now guard) log m) (alive : m.form.alive = true)
    (mailbox : m.form.mailbox = []) (timer : m.form.debounce.timer = none) :
    m.form.debounce.armed = false := by
  have timed : m.form.coordinator.Timed :=
    course.keeps_alive (P := Coordinator.Timed) (fun living step timed => timed.step step living)
      ⟨fun g among => (by cases among), fun t set => (by cases set), fun armed => (by cases armed)⟩
      alive
  apply Bool.eq_false_iff.mpr
  intro armed
  have one := timed.one armed
  simp [Form.coordinator, Debounce.outstanding, mailbox, timer] at one

/-- What is left of a form that has nothing to do. -/
structure Form.AtRest (f : Form) : Prop where
  idle : f.phase = .idle
  landed : f.pending = none
  forgotten : f.deferred = none
  unarmed : f.debounce.armed = false
  unchanged : f.changedDuringSubmit = []
  dark : f.loader.visible = false
  free : f.token = none

/-- A form with nothing to do is at rest. -/
theorem Course.atRest (course : Course (.opening c now guard) log m) (alive : m.form.alive = true)
    (mailbox : m.form.mailbox = []) (runs : m.form.runs = [])
    (debounce : m.form.debounce.timer = none) (hide : m.form.loader.hideTimer = none) :
    m.form.AtRest := by
  have landed := nothing_pending course alive mailbox runs
  have flying : m.form.standing.flying = false := by simp [Form.standing, landed]
  have tidy := course.tidy alive
  have coherent := course.coherent.living alive
  have unarmed := course.unarmed alive mailbox debounce
  constructor
  · simp [Form.phase, landed, unarmed]
  · exact landed
  · exact (orderly course alive).clear (Option.map_eq_none_iff.mpr landed)
  · exact unarmed
  · by_contra changed
    rw [coherent.changed changed] at flying
    cases flying
  · apply Bool.eq_false_iff.mpr
    intro shows
    rcases tidy.loader shows with busy | ⟨due, timer⟩ | among
    · rw [flying] at busy
      cases busy
    · cases hide.symm.trans timer
    · simp [Form.standing, mailbox] at among
  · have held := tidy.token
    rw [flying] at held
    simpa [Form.standing] using held

/-- A form that lives is at rest once its mailbox is empty and no run and no timer of its own is
left, and every submit handled by then has been answered, once. Handlers and listeners may have
failed or panicked. -/
theorem rest_leaves_nothing (course : Course (.opening c now guard) log m)
    (alive : m.form.alive = true) (mailbox : m.form.mailbox = []) (runs : m.form.runs = [])
    (debounce : m.form.debounce.timer = none) (hide : m.form.loader.hideTimer = none) :
    m.form.AtRest ∧ ∀ (later : Log) n d earlier t, log = later ++ (n, d) :: earlier →
      n.act d = .handles (.ask t .submit) → m.form.answersTo t = 1 := by
  refine ⟨course.atRest alive mailbox runs debounce hide, ?_⟩
  rintro later n d earlier t rfl handles
  obtain ⟨waiters, nextWaiters⟩ := nobody_waits course alive mailbox runs
  have placed := course.submit_placed alive handles
  simpa [waiters, nextWaiters] using placed

/-- Two submissions, one after the other, and then the loader goes. -/
theorem rest_leaves_nothing_twice :
    ∃ log m, Course (.opening { FormConfig.sample ⟨false, none⟩ .emptyObject with
        loaderDelay := 20 } 0 .new) log m ∧
      m.form.cycles = 2 ∧ m.form.AtRest ∧ m.form.answersTo 1 = 1 := by
  obtain ⟨log, m, course, -, passed⟩ := Moment.course_of_test
    (.opening { FormConfig.sample ⟨false, none⟩ .emptyObject with loaderDelay := 20 } 0 .new)
    [.ask 0 .submit, .handle, .ask 1 .submit, .handle, .startCall 0 0, .pass 5, .endCall 0 0,
      .finishRun 0, .handle, .startCall 0 0, .pass 5, .endCall 0 0, .finishRun 0, .handle, .pass 20,
      .fireHide, .handle]
    (fun log m => m.form.alive && m.form.mailbox.isEmpty && m.form.runs.isEmpty &&
      m.form.debounce.timer.isNone && m.form.loader.hideTimer.isNone &&
      decide (m.form.cycles = 2) &&
      log[13]?.any fun x => (x.1.act x.2).submit? == some 1)
    (by decide +kernel)
  simp only [Bool.and_eq_true, Option.any_eq_true, List.isEmpty_iff, Option.isNone_iff_eq_none,
    decide_eq_true_eq, Act.submit?_eq_some, beq_iff_eq] at passed
  obtain ⟨⟨⟨⟨⟨⟨alive, mailbox⟩, runs⟩, debounce⟩, hide⟩, cycles⟩, x, place, handles⟩ := passed
  obtain ⟨rests, answered⟩ := rest_leaves_nothing course alive mailbox runs debounce hide
  exact ⟨log, m, course, cycles, rests, answered _ _ _ _ 1 (Log.around place) handles⟩

end

end LiveForm
