import LiveForm.Proofs.Countdown
import LiveForm.Proofs.Values

/-!
# Edits in a burst

Edits that follow each other within the wait lead to one submission, a wait after the last of them.

* `Log.made`: the attempts made in the deeds of a log, with the moments before and after each;
* `Burst`: a log in which a form hears of nothing but edits that follow each other within the wait, and
  then of none for as long as that;
* `Burst.gathers`, `Burst.Stage`: what the form does until the last edit, and from then on;
* `burst_submits_once`: there is one attempt, when the wait after the last edit is over, with the
  values that this edit has left.
-/

set_option autoImplicit false

namespace LiveForm

/-! ## Attempts with their times -/

/-- An attempt, with the moments before and after the deed it was made in. -/
structure Made where
  before : Moment
  attempt : Event
  after : Moment

/-- The attempts made between two moments. -/
def Moment.made (a b : Moment) : List Made :=
  (b.form.attempts.take (b.form.attempts.length - a.form.attempts.length)).map fun e => ⟨a, e, b⟩

/-- The attempts made in the deeds of a log that leads to a moment, the last one first. -/
def Log.made : Log → Moment → List Made
  | [], _ => []
  | (a, _) :: log, m => a.made m ++ Log.made log a

section

variable {a b m : Moment} {d : Deed} {e : Event} {later earlier : Log}

theorem Moment.made_none (none : b.form.attempts = a.form.attempts) : a.made b = [] := by
  simp [made, none]

theorem Moment.made_one (one : b.form.attempts = e :: a.form.attempts) : a.made b = [⟨a, e, b⟩] := by
  simp [made, one]

theorem Log.made_append (course : Course b later m) :
    Log.made (later ++ earlier) m = Log.made later m ++ Log.made earlier b := by
  induction course with
  | here => rfl
  | next _ _ ih => simp only [List.cons_append, made, ih, List.append_assoc]

end

/-! ## Bursts -/

/-- When the qualifying edits in a log were handled, the last one first. -/
def Log.editTimes (log : Log) : List Nat := (log.filter fun x => Qualifies x).map fun x => x.1.now

/-- Of a log the edit in deed `d` at `n` is the last one in a burst: each has followed the one before
within the wait, and none comes for a wait after the last one. Up to then nothing else disturbs. -/
structure Burst (wait : Nat) (rest : Log) (n : Moment) (d : Deed) (first : Log) : Prop where
  edit : Qualifies (n, d)
  dense : (Log.editTimes ((n, d) :: first)).IsChain fun next last => next < last + wait
  last : ∀ x ∈ rest, x.1.now ≤ n.now + wait → ¬Qualifies x
  undisturbed : ∀ x ∈ rest ++ (n, d) :: first, x.1.now ≤ n.now + wait → Disturbs x → Qualifies x

namespace Log

variable {log : Log} {x : Moment × Deed}

theorem editTimes_cons_of (edit : Qualifies x) :
    editTimes (x :: log) = x.1.now :: log.editTimes := by
  simp [editTimes, edit]

theorem editTimes_cons_of_not (other : ¬Qualifies x) : editTimes (x :: log) = log.editTimes := by
  simp [editTimes, other]

end Log

/-! ## Up to the last edit -/

/-- What a form does that has heard of nothing but edits, the last of which was handled at some time:
it waits, or it has nothing to submit. -/
def Moment.Gathers (m : Moment) (wait : Nat) : Option Nat → Prop
  | none => m.Idles
  | some time => m.Awaits (time + wait)

theorem Moment.Gathers.free {m : Moment} {wait : Nat} {last : Option Nat} (h : m.Gathers wait last) :
    m.form.pending = none := by
  cases last with
  | none => exact Moment.Idles.free h
  | some => exact Moment.Awaits.free h

section

variable {c : FormConfig} {now wait due : Nat} {guard : UnloadGuard} {a b m n : Moment} {d : Deed}
  {log earlier first rest : Log}

/-- Before the next edit, which comes within the wait, a form submits nothing. -/
theorem Course.gathers (before : Course (.opening c now guard) earlier a) (course : Course a log m)
    (auto : c.autoSubmit.enable = true) (set : c.effectiveWait = some wait) (idles : a.Idles)
    (alive : m.form.alive = true) {next : Nat} (soon : m.now ≤ next)
    (dense : (next :: log.editTimes).IsChain fun next last => next < last + wait)
    (undisturbed : ∀ x ∈ log, Disturbs x → Qualifies x) :
    log.made m = [] ∧ m.Gathers wait log.editTimes.head? := by
  induction course generalizing next with
  | here => exact ⟨rfl, idles⟩
  | @next log a' m d course done ih =>
    have living := Moment.perform?_alive done alive
    have setup := (before.append course).setup living
    have others : ∀ x ∈ log, Disturbs x → Qualifies x := fun x among =>
      undisturbed x (List.mem_cons_of_mem _ among)
    have later := Moment.perform?_later done
    by_cases edit : Qualifies (a', d)
    · rw [Log.editTimes_cons_of edit] at dense ⊢
      obtain ⟨-, dense⟩ := List.isChain_cons_cons.mp dense
      obtain ⟨made, gathers⟩ := ih living (Nat.le_refl _) dense others
      obtain ⟨awaits, none⟩ := Moment.perform?_rearms done edit
        ((congrArg FormSetup.autoSubmit setup).trans auto)
        ((congrArg FormSetup.wait setup).trans set) gathers.free alive
      exact ⟨by rw [Log.made, Moment.made_none none, made]; rfl, awaits⟩
    · rw [Log.editTimes_cons_of_not edit] at dense ⊢
      obtain ⟨made, gathers⟩ := ih living (Nat.le_trans later soon) dense others
      have calm : ¬Disturbs (a', d) := fun disturbs =>
        edit (undisturbed _ List.mem_cons_self disturbs)
      cases last : log.editTimes with
      | nil =>
        rw [last] at gathers
        obtain ⟨idles, none⟩ := Moment.perform?_idles done gathers calm alive
        exact ⟨by rw [Log.made, Moment.made_none none, made]; rfl, idles⟩
      | cons time times =>
        rw [last] at gathers dense
        have early := (List.isChain_cons_cons.mp dense).1
        cases Moment.perform?_awaits (before.append course) done gathers calm with
        | ends dead => simp [alive] at dead
        | waits awaits none => exact ⟨by rw [Log.made, Moment.made_none none, made]; rfl, awaits⟩
        | submits past => omega

/-- An edit is no attempt, however the form takes it. -/
theorem Moment.perform?_edit (h : a.perform? d = some b) (edit : Qualifies (a, d)) :
    b.form.attempts = a.form.attempts := by
  obtain ⟨m, handles, qualifying⟩ := Act.isHandling_iff.mp edit
  have none {last : Coordinator} (step : a.form.coordinator.Step a.now (.handles m) last)
      (ends : b.form.coordinator = last ∨ b.form.alive = false ∧ b.form.coordinator.Precedes last) :
      b.form.attempts = a.form.attempts := by
    cases step with
    | handle mailbox handled =>
      have same : last.attempts = a.form.coordinator.attempts :=
        handled.no_attempt (by rintro _ rfl; cases qualifying) (by rintro _ rfl; cases qualifying)
          (by rintro _ _ rfl; cases qualifying)
      have few := Form.attempts_within ends
      rw [same, Form.coordinator_attempts] at few
      exact (perform?_attempts h).none few.length_le
  have leaves := perform?_leaves h
  rw [handles] at leaves
  cases leaves with
  | whole step => exact none step (.inl rfl)
  | rest step gone before => exact none step (.inr ⟨gone.dead, before⟩)

theorem Form.idle_iff {f : Form} :
    f.phase = .idle ↔ f.pending = none ∧ f.debounce.armed = false := by
  unfold phase
  cases f.pending <;> cases f.debounce.armed <;> simp

/-! ## From the last edit on -/

/-- The attempt is what a burst is to lead to: the form makes it on its own when the wait is over, and
it has seen the values that were left at some moment. -/
structure Made.Answers (x : Made) (due : Nat) (edited : Moment) : Prop where
  time : x.before.now = due
  auto : x.attempt.isAuto = true
  tells : x.attempt.Tells x.after.form
  store : x.after.form.store = edited.form.store

/-- The attempts up to a time. -/
def Log.madeBy (log : Log) (m : Moment) (due : Nat) : List Made :=
  (log.made m).filter fun x => x.before.now ≤ due

/-- How far a form has come after the last edit of a burst. -/
inductive Burst.Stage (due : Nat) (edited : Moment) (log : Log) (m : Moment) : Prop where
  | waits (awaits : m.Awaits due) (early : m.now ≤ due) (none : log.madeBy m due = [])
      (store : m.form.store = edited.form.store)
  | submitted {x : Made} (one : log.madeBy m due = [x]) (answers : x.Answers due edited)
      (done : m.now ≤ due → m.form.alive = true →
        m.form.debounce.armed = false ∧ m.form.deferred = none)
  | ended (dead : m.form.alive = false) (none : log.madeBy m due = [])

theorem Log.madeBy_cons : madeBy ((a, d) :: log) m due =
    ((a.made m).filter fun x => x.before.now ≤ due) ++ log.madeBy a due :=
  List.filter_append _ _

theorem Log.madeBy_none (none : m.form.attempts = a.form.attempts) :
    madeBy ((a, d) :: log) m due = log.madeBy a due := by
  rw [madeBy_cons, Moment.made_none none]
  rfl

theorem Log.madeBy_late (late : due < a.now) : madeBy ((a, d) :: log) m due = log.madeBy a due := by
  have none : (a.made m).filter (fun x => x.before.now ≤ due) = [] := by
    rw [List.filter_eq_nil_iff]
    intro x among
    obtain ⟨e, -, rfl⟩ := List.mem_map.mp among
    simpa using late
  rw [madeBy_cons, none]
  rfl

theorem Log.madeBy_one {e : Event} (one : m.form.attempts = e :: a.form.attempts)
    (soon : a.now ≤ due) (none : log.madeBy a due = []) :
    madeBy ((a, d) :: log) m due = [⟨a, e, m⟩] := by
  rw [madeBy_cons, Moment.made_one one, none]
  simp [soon]

/-- A form that does not wait for the clock is not left waiting by it. -/
theorem Moment.Awaits.waits {ms : Nat} (awaits : m.Awaits due)
    (timed : m.form.debounce.Timed m.form.mailbox) (waits : m.Waits ms) : m.now + ms ≤ due := by
  rcases awaits.timer with set | ⟨unset, -⟩
  · exact waits.debounce _ set
  · have one := timed.one awaits.armed
    simp [Debounce.outstanding, unset, waits.unheard] at one

theorem Moment.unheard_of_dead (one : a.form.coordinator.OneFlight) (dead : a.form.alive = false)
    (message : Message) : a.act d ≠ .handles message := by
  intro handles
  have alive := alive_of_handles one handles
  simp [dead] at alive

theorem Moment.dead_of_perform? (h : a.perform? d = some b) (dead : a.form.alive = false) :
    b.form.alive = false := by
  cases alive : b.form.alive with
  | false => rfl
  | true => simp [perform?_alive h alive] at dead

/-- A message that does not disturb leaves the values of a form alone that has nothing in flight. -/
theorem Moment.perform?_calm_store (h : a.perform? d = some b) (calm : ¬Disturbs (a, d))
    (free : a.form.pending = none) : b.form.store = a.form.store := by
  by_cases handling : ∃ m, a.act d = .handles m
  · obtain ⟨m, handles⟩ := handling
    have undisturbed := undisturbed_of calm handles
    rw [handles_store h handles]
    cases m with
    | ask t request =>
      cases request with
      | setValue | reset | submit => cases undisturbed
      | _ => rfl
    | settled cycle failure => cases failure <;> simp [Form.storeAfter, free]
    | fieldChanged | loaded => cases undisturbed
    | _ => rfl
  · exact perform?_store h fun m eq => handling ⟨m, eq⟩

/-- Nothing follows an attempt that has left nothing to submit. -/
theorem Moment.perform?_done (h : a.perform? d = some b)
    (unarmed : a.form.debounce.armed = false) (clear : a.form.deferred = none)
    (calm : ¬Disturbs (a, d)) :
    b.form.attempts = a.form.attempts ∧
      (b.form.alive = true → b.form.debounce.armed = false ∧ b.form.deferred = none) := by
  by_cases handling : ∃ m, a.act d = .handles m
  · obtain ⟨m, handles⟩ := handling
    have undisturbed := undisturbed_of calm handles
    have ends {last : Coordinator} (step : a.form.coordinator.Step a.now (.handles m) last)
        (ends : b.form.coordinator = last ∨ b.form.alive = false ∧ b.form.coordinator.Precedes last) :
        b.form.attempts = a.form.attempts ∧
          (b.form.alive = true → b.form.debounce.armed = false ∧ b.form.deferred = none) := by
      cases step with
      | handle mailbox handled =>
        obtain ⟨same, idle, none⟩ := handled.done unarmed clear undisturbed
        have few := Form.attempts_within ends
        have same : last.attempts = a.form.coordinator.attempts := same
        rw [same, Form.coordinator_attempts] at few
        refine ⟨(perform?_attempts h).none few.length_le, fun living => ?_⟩
        obtain rfl : b.form.coordinator = last := ends.resolve_right (by simp [living])
        exact ⟨idle, none⟩
    have leaves := perform?_leaves h
    rw [handles] at leaves
    cases leaves with
    | whole step => exact ends step (.inl rfl)
    | rest step gone before => exact ends step (.inr ⟨gone.dead, before⟩)
  · have idle : ∀ m, a.act d ≠ .handles m := fun m eq => handling ⟨m, eq⟩
    refine ⟨perform?_unattempted h idle, fun living => ?_⟩
    obtain ⟨-, armed, deferred, -⟩ := ((perform?_leaves h).step living).idle idle
    exact ⟨armed.trans unarmed, deferred.trans clear⟩

/-- From the last edit of a burst on, up to the end of the wait after it. -/
theorem Burst.Stage.step (before : Course (.opening c now guard) earlier a)
    (done : a.perform? d = some m) {edited : Moment} (stage : Stage due edited log a)
    (punctual : Log.Punctual [(a, d)]) (calm : a.now ≤ due → ¬Disturbs (a, d)) :
    Stage due edited ((a, d) :: log) m := by
  have later := Moment.perform?_later done
  cases stage with
  | waits awaits early none store =>
    have same := Moment.perform?_calm_store done (calm early) awaits.free
    cases Moment.perform?_awaits before done awaits (calm early) with
    | ends dead still => exact .ended dead ((Log.madeBy_none still).trans none)
    | waits awaits' still =>
      refine .waits awaits' ?_ ((Log.madeBy_none still).trans none) (same.trans store)
      by_cases passes : ∃ ms, d = .pass ms
      · obtain ⟨ms, rfl⟩ := passes
        rw [Moment.perform?_pass done]
        exact awaits.waits (before.timed awaits.alive) punctual.head
      · rwa [Moment.perform?_time done fun ms eq => passes ⟨ms, eq⟩]
    | submits past one auto tells quiet =>
      exact .submitted (Log.madeBy_one one early none)
        ⟨Nat.le_antisymm early past, auto, tells, same.trans store⟩ fun _ => quiet
  | submitted one answers quiet =>
    by_cases late : due < a.now
    · exact .submitted ((Log.madeBy_late late).trans one) answers fun early => by omega
    · have early : a.now ≤ due := Nat.not_lt.mp late
      cases alive : a.form.alive with
      | true =>
        obtain ⟨unarmed, clear⟩ := quiet early alive
        obtain ⟨still, quiet⟩ := Moment.perform?_done done unarmed clear (calm early)
        exact .submitted ((Log.madeBy_none still).trans one) answers fun _ => quiet
      | false =>
        have unheard := Moment.unheard_of_dead (d := d) (one_flight before) alive
        have still := Moment.perform?_unattempted done unheard
        refine .submitted ((Log.madeBy_none still).trans one) answers fun _ living => ?_
        simp [Moment.dead_of_perform? done alive] at living
  | ended dead none =>
    have unheard := Moment.unheard_of_dead (d := d) (one_flight before) dead
    have still := Moment.perform?_unattempted done unheard
    exact .ended (Moment.dead_of_perform? done dead) ((Log.madeBy_none still).trans none)

theorem Course.stages (before : Course (.opening c now guard) earlier b) (course : Course b rest m)
    {edited : Moment} (first : Burst.Stage due edited [] b) (punctual : rest.Punctual)
    (calm : ∀ x ∈ rest, x.1.now ≤ due → ¬Disturbs x) : Burst.Stage due edited rest m := by
  induction course with
  | here => exact first
  | next course done ih =>
    obtain ⟨this, others⟩ := List.forall_mem_cons.mp calm
    obtain ⟨on, earlier⟩ := List.forall_mem_cons.mp punctual
    exact (ih earlier others).step (before.append course) done
      (List.forall_mem_singleton.mpr on) this

/-! ## The main result -/

/-- A form that submits on its own and is idle hears of a burst of edits, and then of nothing that
disturbs until the wait after the last one is over. Up to then it makes one attempt at most, at that
very time and on its own, and it checks and keeps the values which the last edit has left. If the form
lives and the time is over it has made that attempt. -/
theorem burst_submits_once (before : Course (.opening c now guard) earlier a)
    (course : Course a (rest ++ (n, d) :: first) m) (auto : c.autoSubmit.enable = true)
    (set : c.effectiveWait = some wait) (idle : a.form.phase = .idle) (punctual : rest.Punctual)
    (burst : Burst wait rest n d first) :
    (Log.madeBy (rest ++ (n, d) :: first) m (n.now + wait)).length ≤ 1 ∧
    (∀ x ∈ Log.madeBy (rest ++ (n, d) :: first) m (n.now + wait),
      x.before.now = n.now + wait ∧ x.attempt.isAuto = true ∧ x.attempt.Tells x.after.form ∧
        ∀ b, n.perform? d = some b → x.after.form.store = b.form.store) ∧
    (m.form.alive = true → n.now + wait < m.now ∨ n.now + wait = m.now ∧ m.form.mailbox = [] ∧
        m.form.debounce.timer = none →
      (Log.madeBy (rest ++ (n, d) :: first) m (n.now + wait)).length = 1) := by
  obtain ⟨b, gathering, done, after⟩ := course.split
  have whole := before.append gathering
  obtain ⟨edit, handles, -⟩ := Act.isHandling_iff.mp burst.edit
  have living := Moment.alive_of_handles (one_flight whole) handles
  obtain ⟨free, unarmed⟩ := Form.idle_iff.mp idle
  have dense := burst.dense
  rw [Log.editTimes_cons_of burst.edit] at dense
  have soon : ∀ x ∈ first, x.1.now ≤ n.now + wait := fun x among =>
    Nat.le_trans (gathering.until x among) (Nat.le_add_right _ _)
  obtain ⟨none, gathers⟩ := before.gathers gathering auto set
    ⟨gathering.alive_before living, free, unarmed⟩ living (Nat.le_refl _) dense
    fun x among => burst.undisturbed x (by simp [among]) (soon x among)
  have time : b.now = n.now := Moment.perform?_time done fun ms eq => by
    subst eq
    cases handles
  have made : Log.madeBy (rest ++ (n, d) :: first) m (n.now + wait) =
      Log.madeBy rest m (n.now + wait) := by
    rw [Log.madeBy, Log.made_append after, Log.made, none,
      Moment.made_none (Moment.perform?_edit done burst.edit)]
    simp [Log.madeBy]
  have calm : ∀ x ∈ rest, x.1.now ≤ n.now + wait → ¬Disturbs x := fun x among early disturbs =>
    burst.last x among early (burst.undisturbed x (List.mem_append_left _ among) early disturbs)
  have stage : Burst.Stage (n.now + wait) b [] b := by
    cases alive : b.form.alive with
    | false => exact .ended alive rfl
    | true =>
      have setup := whole.setup living
      obtain ⟨awaits, -⟩ := Moment.perform?_rearms done burst.edit
        ((congrArg FormSetup.autoSubmit setup).trans auto)
        ((congrArg FormSetup.wait setup).trans set) gathers.free alive
      exact .waits awaits (time ▸ Nat.le_add_right _ _) rfl rfl
  have opened := whole.next done
  rw [made]
  cases opened.stages after stage punctual calm with
  | waits awaits early none =>
    refine ⟨by simp [none], by simp [none], fun alive past => ?_⟩
    rcases past with late | ⟨-, unheard, unset⟩
    · omega
    · have one := ((opened.append after).timed alive).one awaits.armed
      simp [Debounce.outstanding, unheard, unset] at one
  | submitted one answers =>
    refine ⟨by simp [one], fun x among => ?_, fun _ _ => by simp [one]⟩
    rw [one] at among
    obtain rfl := List.mem_singleton.mp among
    refine ⟨answers.time, answers.auto, answers.tells, fun b' done' => ?_⟩
    rw [← Option.some.inj (done.symm.trans done')]
    exact answers.store
  | ended dead none =>
    exact ⟨by simp [none], by simp [none], fun alive => by simp [dead] at alive⟩

/-- Two edits, thirty milliseconds apart, with a wait of fifty. -/
theorem burst_submits_once_two :
    ∃ log m, Course (.opening (.sample ⟨true, some 50⟩ .emptyObject) 0 .new) log m ∧
      log.editTimes = [30, 0] ∧ (log.madeBy m 80).length = 1 := by
  obtain ⟨log, m, course, -, passed⟩ := Moment.course_of_test
    (.opening (.sample ⟨true, some 50⟩ .emptyObject) 0 .new)
    [.change ⟨["name"]⟩ (.str "A"), .handle, .pass 30, .change ⟨["name"]⟩ (.str "Ada"), .handle,
      .pass 50, .fireDebounce, .handle, .startCall 0 0, .pass 1]
    (fun log m => m.form.alive && decide (m.now = 81) && decide (log.editTimes = [30, 0]) &&
      decide (Log.Punctual (log.take 5)) &&
      decide (∀ y ∈ log, Disturbs y → Qualifies y) && decide (∀ y ∈ log.take 5, ¬Qualifies y) &&
      log[5]?.any fun (x : Moment × Deed) => decide (x.1.now = 30) && decide (Qualifies x))
    (by decide +kernel)
  simp only [Bool.and_eq_true, Option.any_eq_true, decide_eq_true_eq] at passed
  obtain ⟨⟨⟨⟨⟨⟨alive, now⟩, times⟩, punctual⟩, undisturbed⟩, last⟩, ⟨n, d⟩, place, time, edit⟩ := passed
  have around := Log.around place
  have dense : (Log.editTimes ((n, d) :: log.drop 6)).IsChain fun next last => next < last + 50 := by
    have none : Log.editTimes (log.take 5) = [] := by
      simpa [Log.editTimes, List.filter_eq_nil_iff] using last
    have all := times
    rw [around, Log.editTimes, List.filter_append, List.map_append] at all
    have all : Log.editTimes (log.take 5) ++ Log.editTimes ((n, d) :: log.drop 6) = [30, 0] := all
    rw [none, List.nil_append] at all
    rw [all]
    decide
  have burst : Burst 50 (log.take 5) n d (log.drop 6) :=
    ⟨edit, dense, fun x among _ => last x among, fun x among _ => undisturbed x (around ▸ among)⟩
  rw [around] at course
  obtain ⟨-, -, once⟩ := burst_submits_once .here course rfl rfl rfl punctual burst
  have time : n.now = 30 := time
  have one := once alive (.inl (by rw [now, time]; decide))
  rw [time, ← around] at one
  exact ⟨log, m, around ▸ course, times, one⟩

end

end LiveForm
