import LiveForm.Proofs.Ledger.Course
import LiveForm.Proofs.Standing.Step

/-!
# Failures are told once

The notifier hears of each submission that has failed, and of default values that could not be
loaded; the host that wants to know hears of each submission that invalid fields have stopped. A stop
tells those who waited and changes nothing else.

* `Coordinator.Spent`: a submission that has failed does not fail again;
* `Scene.Tells`: acts that say something and change nothing;
* `Attempt.Stopped`: what an attempt comes to that is made in vain;
* `failures_reported`: who has heard of what, on any course.
-/

set_option autoImplicit false

namespace LiveForm

/-! ## A submission fails once -/

namespace Coordinator

variable {now : Nat} {c c' : Coordinator} {m : Message} {act : Act}

def failed (c : Coordinator) : List (Nat × SubmitError) := c.record.filterMap Event.failure?

theorem answer_failed (c : Coordinator) (tickets : List Ticket) (reply : Reply) :
    (c.answer tickets reply).failed = c.failed := by
  have none :
      (tickets.map fun t => Event.answered t reply).reverse.filterMap Event.failure? = [] := by
    simp [List.filterMap_eq_nil_iff, Event.failure?]
  rw [answer, failed, List.filterMap_append, none, List.nil_append, failed]

/-- Submissions fail in the order of their cycles, and before the one in flight. -/
structure Spent (c : Coordinator) : Prop where
  once : (c.failed.map Prod.fst).Nodup
  known : ∀ x ∈ c.failed, x.1 ≤ c.cycles
  past : ∀ p, c.pending = some p → ∀ x ∈ c.failed, x.1 < p.cycle

theorem Spent.aside (h : c.Spent) (failed : c'.failed = c.failed) (cycles : c'.cycles = c.cycles)
    (pending : c'.pending = c.pending) : c'.Spent :=
  ⟨failed ▸ h.once, by rw [failed, cycles]; exact h.known, by rw [failed, pending]; exact h.past⟩

theorem Attempts.spent {trigger : Trigger} {waiters : List Ticket}
    (h : c.Attempts trigger waiters c') (spent : c.Spent) : c'.Spent := by
  cases h with
  | begins cycle =>
    refine ⟨spent.once, fun x among => Nat.le_succ_of_le (spent.known x among), ?_⟩
    rintro _ ⟨⟩ x among
    have known := spent.known x among
    omega
  | halts => exact spent.aside (answer_failed _ _ _) rfl rfl

theorem Spent.settle {p : Pending} (spent : c.Spent) (orderly : c.Orderly)
    (flight : c.pending = some p) (failure : Option SubmitError) : (c.settle p failure).Spent := by
  have last := orderly.last p flight
  have failed : (c.settle p failure).failed =
      (failure.map fun e => (p.cycle, e)).toList ++ c.failed := by
    unfold Coordinator.settle
    rw [answer_failed]
    cases failure <;> rfl
  have cycles : (c.settle p failure).cycles = c.cycles := rfl
  cases failure with
  | none => exact ⟨failed ▸ spent.once, failed ▸ spent.known, by rintro _ ⟨⟩⟩
  | some e =>
    refine ⟨?_, ?_, by rintro _ ⟨⟩⟩
    · rw [failed]
      refine List.nodup_cons.mpr ⟨fun among => ?_, spent.once⟩
      obtain ⟨x, among, same⟩ := List.mem_map.mp among
      exact absurd same (Nat.ne_of_lt (spent.past p flight x among))
    · rw [failed, cycles]
      exact List.forall_mem_cons.mpr ⟨Nat.le_of_eq last, spent.known⟩

theorem Handles.spent (h : c.Handles now m c') (orderly : c.Orderly) (spent : c.Spent) :
    c'.Spent := by
  have requested : (c.request now).Spent :=
    spent.aside (by rw [failed, request_record, failed]) (request_cycles _ _) (request_pending _ _)
  cases h with
  | aside | stale | unknown => exact spent
  | changed => exact requested
  | told | reset => exact spent.aside (answer_failed _ _ _) rfl rfl
  | written => exact requested.aside (answer_failed _ _ _) rfl rfl
  | submitLater | elapsedLater => exact spent.aside rfl rfl rfl
  | submitNow _ next | elapsedNow _ _ next => exact next.spent (spent.aside rfl rfl rfl)
  | settledLast flight => exact spent.settle orderly flight _
  | settledNext flight _ next =>
    exact next.spent ((spent.settle orderly flight _).aside rfl rfl rfl)

theorem Step.spent (h : c.Step now act c') (orderly : c.Orderly) (spent : c.Spent) : c'.Spent := by
  cases h with
  | still => exact spent
  | call => exact spent.aside rfl rfl rfl
  | ask | post | straggle => exact spent.aside (by simp [failed]) (by simp) (by simp)
  | fire | finish => exact spent.aside (by simp [failed]) (by simp) (by simp)
  | handle _ handled =>
    exact handled.spent ⟨orderly.behind, orderly.last⟩ (spent.aside rfl rfl rfl)

end Coordinator

theorem Form.coordinator_failed (f : Form) : f.coordinator.failed = f.failedCycles := by
  unfold Coordinator.failed failedCycles coordinator
  rw [List.filterMap_filter]
  apply List.filterMap_congr
  intro e _
  cases e <;> simp [Event.isRecorded, Event.failure?]

section

variable {c : FormConfig} {now : Nat} {guard : UnloadGuard} {a b m : Moment} {d : Deed} {log : Log}

/-- A form hears of a failure only while it lives. -/
theorem Moment.alive_of_failure {failure : Failure} (one : a.form.coordinator.OneFlight)
    (h : a.failure? d = some failure) : a.form.alive = true := by
  unfold Moment.failure? at h
  split at h
  · rename_i m handles
    exact alive_of_handles one handles
  · cases h

/-- No submission fails twice. -/
theorem Course.failed_once (course : Course (.opening c now guard) log m) :
    (m.form.failedCycles.map Prod.fst).Nodup := by
  induction course with
  | here =>
    have none : (Moment.opening c now guard).form.failedCycles = [] :=
      congrArg Ledger.failed (Course.here : Course (.opening c now guard) [] _).ledger
    rw [none]
    exact .nil
  | @next log a b d before done ih =>
    cases alive : a.form.alive with
    | true =>
      have spent : a.form.coordinator.Orderly ∧ a.form.coordinator.Spent :=
        before.keeps_alive (P := fun c => c.Orderly ∧ c.Spent)
          (fun _ step known => ⟨known.1.step step, step.spent known.1 known.2⟩)
          ⟨⟨by rintro ⟨⟩, by rintro _ ⟨⟩⟩, .nil, nofun, nofun⟩ alive
      rw [← Form.coordinator_failed]
      cases Moment.perform?_leaves done with
      | whole step => exact (step.spent spent.1 spent.2).once
      | rest step _ part =>
        exact (part.record.sublist.filterMap _).map _ |>.nodup (step.spent spent.1 spent.2).once
    | false =>
      have same : b.form.failedCycles =
          ((a.failure? d).bind Failure.submission?).toList ++ a.form.failedCycles :=
        congrArg Ledger.failed (Moment.perform?_ledger done)
      have none : a.failure? d = none := by
        by_contra some
        obtain ⟨failure, heard⟩ := Option.ne_none_iff_exists'.mp some
        exact absurd (Moment.alive_of_failure (one_flight before) heard) (by simp [alive])
      rw [same, none]
      exact ih

end

/-! ## A stop changes nothing -/

/-- Holds of all events but those that show a snapshot. -/
def Event.isSaid : Event → Bool
  | .published _ => false
  | _ => true

/-- What has happened so far beside the showing of snapshots, the last one first. -/
def Form.said (f : Form) : List Event := f.history.filter Event.isSaid

theorem Turn.andThen_eq_falls {t : Turn} {act : Scene → Turn} {s : Scene}
    (h : t.andThen act = .falls s) : t = .falls s ∨ ∃ s', t = .goesOn s' ∧ act s' = .falls s := by
  cases t with
  | goesOn s' => exact .inr ⟨s', rfl, h⟩
  | falls => exact .inl h

namespace Scene

/-- From `s` to `s'` something is said and shown, and nothing else changes. -/
def Tells (news : List Event) (s s' : Scene) : Prop :=
  ∃ onInvalid observer published history,
    s' = ⟨{ s.form with onInvalid, observer, published, history }, s.guard⟩ ∧
    history.filter Event.isSaid = news ++ s.form.said

variable {s s' s'' : Scene} {news news' : List Event}

theorem Tells.trans (h : s.Tells news s') (h' : s'.Tells news' s'') :
    s.Tells (news' ++ news) s'' := by
  obtain ⟨_, _, _, _, rfl, said⟩ := h
  obtain ⟨onInvalid, observer, published, history, rfl, said'⟩ := h'
  refine ⟨onInvalid, observer, published, history, rfl, ?_⟩
  rw [said', Form.said, said, List.append_assoc]

theorem observe_tells {shown : Snapshot} (turn : s.observe shown = .goesOn s') : s.Tells [] s' := by
  unfold observe at turn
  split at turn
  · cases turn
    exact ⟨_, _, _, _, rfl, rfl⟩
  · dsimp only at turn
    split at turn
    · cases turn
    · cases turn
      exact ⟨_, _, _, _, rfl, rfl⟩

theorem publish_tells {phase : FormPhase} (turn : s.publish phase = .goesOn s') :
    s.Tells [] s' := by
  unfold publish at turn
  dsimp only at turn
  split at turn
  · cases turn
    exact ⟨_, _, _, _, rfl, rfl⟩
  · obtain ⟨_, _, _, _, rfl, said⟩ := observe_tells turn
    exact ⟨_, _, _, _, rfl, said⟩

theorem reportInvalid_tells {errors : FieldErrors} (turn : s.reportInvalid errors = .goesOn s') :
    s.Tells (if s.form.onInvalid.isSome then [.invalidReported errors] else []) s' := by
  unfold reportInvalid at turn
  split at turn
  · rename_i unset
    cases turn
    rw [unset]
    exact ⟨_, _, _, _, rfl, rfl⟩
  · rename_i callback set
    dsimp only at turn
    split at turn
    · cases turn
    · cases turn
      rw [set]
      exact ⟨_, _, _, _, rfl, rfl⟩

theorem answerAll_tells (s : Scene) (tickets : List Ticket) (reply : Reply) :
    s.Tells (tickets.map fun t => .answered t reply).reverse (s.answerAll tickets reply) := by
  have guard : (s.answerAll tickets reply).guard = s.guard :=
    congrArg Custody.guard (s.answerAll_custody tickets reply)
  have all : (tickets.map fun t => Event.answered t reply).filter Event.isSaid =
      tickets.map fun t => Event.answered t reply := by
    simp [List.filter_eq_self, Event.isSaid]
  refine ⟨s.form.onInvalid, s.form.observer, s.form.published,
    (tickets.map fun t => .answered t reply).reverse ++ s.form.history, ?_, ?_⟩
  · rw [← guard, ← answerAll_form]
  · rw [List.filter_append, List.filter_reverse, all]
    rfl

theorem publish_fails {phase : FormPhase} (turn : s.publish phase = .falls s') :
    s'.form.failed = true := by
  unfold publish at turn
  dsimp only at turn
  split at turn
  · cases turn
  · exact observe_fails turn

theorem reportInvalid_fails {errors : FieldErrors} (turn : s.reportInvalid errors = .falls s') :
    s'.form.failed = true := by
  unfold reportInvalid at turn
  split at turn
  · cases turn
  · dsimp only at turn
    split at turn
    · rename_i fails
      cases turn
      simp [log, update, Form.log, Form.failed, Callback.hasFailed_called fails]
    · cases turn

/-- A form that falls over a stop has a callback that failed. -/
theorem halt_fails {trigger : Trigger} {waiters : List Ticket} {errors : FieldErrors}
    (turn : s.halt trigger waiters errors = .falls s') : s'.form.failed = true := by
  unfold halt at turn
  rcases Turn.andThen_eq_falls turn with reported | ⟨_, -, turn⟩
  · exact reportInvalid_fails reported
  rcases Turn.andThen_eq_falls turn with shown | ⟨_, -, turn⟩
  · exact publish_fails shown
  · exact publish_fails turn

end Scene

/-- What an attempt comes to that invalid fields stop: those who waited are told what is wrong, and
so is the host, and all is as it was. -/
structure Attempt.Stopped (x : Attempt) (s : Scene) : Prop where
  invalid : x.errors ≠ []
  told : s.form.said =
    (x.waiters.map fun t => .answered t (.outcome (.invalid x.errors))).reverse ++
      (if x.scene.form.onInvalid.isSome then [.invalidReported x.errors] else []) ++
        .halted x.trigger x.errors :: x.scene.form.said
  store : s.form.store = x.scene.form.store
  guard : s.guard = x.scene.guard
  token : s.form.token = x.scene.form.token
  cycles : s.form.cycles = x.scene.form.cycles
  lastCycle : s.form.lastCycle = x.scene.form.lastCycle
  runs : s.form.runs = x.scene.form.runs
  handler : s.form.handler = x.scene.form.handler
  registry : s.form.registry = x.scene.form.registry

namespace Attempt

variable {x : Attempt} {s : Scene}

theorem fails (invalid : x.errors.isEmpty = false) (turn : x.make = .falls s) :
    s.form.failed = true :=
  Scene.halt_fails ((make_eq_halt invalid).symm.trans turn)

/-- An attempt with invalid fields is stopped if it comes to an end. -/
theorem stopped (invalid : x.errors.isEmpty = false) (turn : x.make = .goesOn s) : x.Stopped s := by
  have halts := (make_eq_halt invalid).symm.trans turn
  unfold Scene.halt at halts
  obtain ⟨s₁, reported, halts⟩ := Turn.andThen_eq_goesOn halts
  obtain ⟨s₂, shown, halts⟩ := Turn.andThen_eq_goesOn halts
  have tells := (((Scene.reportInvalid_tells reported).trans (s₁.answerAll_tells _ _)).trans
    (Scene.publish_tells shown)).trans (Scene.publish_tells halts)
  obtain ⟨_, _, _, _, rfl, said⟩ := tells
  refine ⟨by rintro none; simp [none] at invalid, ?_, rfl, rfl, rfl, rfl, rfl, rfl, rfl, rfl⟩
  exact said

end Attempt

/-! ## The main result -/

section

variable {c : FormConfig} {now : Nat} {guard : UnloadGuard} {a b m : Moment} {d : Deed} {log : Log}

/-- A callback that has failed is not called again, since its form has ended. -/
theorem Course.stays_failed (course : Course b log m) (ended : b.form.coordinator.Ended)
    (failed : b.form.failed = true) : m.form.failed = true := by
  have both := course.keeps (P := fun m => m.form.coordinator.Ended ∧ m.form.failed = true)
    (fun {a b d} done before => ?_) ⟨ended, failed⟩
  · exact both.2
  obtain ⟨gone, failed⟩ := before
  constructor
  · cases Moment.perform?_leaves done with
    | whole step => exact gone.step step
    | rest _ gone _ => exact gone
  by_cases handling : d = .handle
  · subst handling
    obtain ⟨m, rest, mailbox, -⟩ := Moment.handle_eq_some done
    have empty : a.form.mailbox = [] := gone.unheard
    simp [empty] at mailbox
  by_cases closing : d = .close
  · subst closing
    simp only [Moment.perform?, Option.ite_none_right_eq_some, Option.some.injEq] at done
    obtain ⟨-, rfl⟩ := done
    exact (Scene.close_failed _).trans failed
  · have same : b.form.failed = a.form.failed :=
      congrArg Prod.snd (Moment.perform?_drifts done handling closing).2
    exact same.trans failed

/-- On a course on which no callback has failed, an attempt that is made in vain is stopped and that
is all. -/
theorem Course.stopped (course : Course (.opening c now guard) log m)
    (steady : m.form.failed = false) {x : Moment × Deed} (inside : x ∈ log) {s : Attempt}
    (stops : x.1.stop? x.2 = some s) : ∃ b, x.1.perform? x.2 = some b ∧ s.Stopped b.scene := by
  obtain ⟨later, earlier, rfl⟩ := List.append_of_mem inside
  obtain ⟨a, d⟩ := x
  obtain ⟨b, -, done, after⟩ := course.split
  refine ⟨b, done, ?_⟩
  obtain ⟨attempt, vain⟩ := Option.filter_eq_some_iff.mp stops
  have vain : s.errors.isEmpty = false := by simpa using vain
  obtain rfl : d = .handle := by
    cases d <;> first | rfl | cases attempt
  obtain ⟨message, rest, mailbox, rfl⟩ := Moment.handle_eq_some done
  rw [Moment.attempt?_of_mailbox mailbox] at attempt
  have made := Scene.handle_of_attempt _ a.now attempt
  rw [made] at after ⊢
  cases turn : s.make with
  | goesOn s' => exact Attempt.stopped vain turn
  | falls s' =>
    rw [turn] at after
    have failed : s'.close.form.failed = true :=
      (Scene.close_failed s').trans (Attempt.fails vain turn)
    exact absurd (after.stays_failed s'.close_ended failed) (by simp [steady])

/-- Of the failures that messages bring the notifier hears, of each one once and of nothing else. A
submission fails once at most, and so does the load, whose error is heard as long as the form lives.
The host is told of each stop, if it wants to know, and of no failure. On a course on which no
callback has failed, a stop tells those who waited for the submission, and the host, what is wrong,
and it changes nothing. -/
theorem failures_reported (course : Course (.opening c now guard) log m)
    (steady : m.form.failed = false) :
    m.form.notices = log.failures.map (Failure.notice c.catalog) ∧
    m.form.failedCycles = log.failures.filterMap Failure.submission? ∧
    (m.form.failedCycles.map Prod.fst).Nodup ∧
    (∃ ahead, log.failures.filterMap Failure.load? ++ ahead = c.loadError?.toList ∧
      (m.form.alive = true → ahead = m.form.resultsAhead.filterMap loadError?)) ∧
    m.form.complaints = (if c.onInvalid.isSome then log.stops.map Attempt.errors else []) ∧
    ∀ x ∈ log, ∀ s, x.1.stop? x.2 = some s →
      ∃ b, x.1.perform? x.2 = some b ∧ s.Stopped b.scene := by
  have ledger := course.ledger
  obtain ⟨rest, heard, ahead⟩ := course.results
  refine ⟨congrArg Ledger.notices ledger, congrArg Ledger.failed ledger, course.failed_once,
    ⟨rest.filterMap loadError?, ?_, fun alive => ?_⟩, congrArg Ledger.complaints ledger,
    fun x inside s stops => course.stopped steady inside stops⟩
  · rw [Log.failures_load, ← List.filterMap_append, heard]
    unfold FormConfig.loadError?
    cases c.result? with
    | none => rfl
    | some r => cases r <;> rfl
  · rw [ahead alive]

/-- A form whose handler is busy and whose defaults cannot be loaded. -/
def FormConfig.unlucky : FormConfig :=
  { FormConfig.sample ⟨false, none⟩ .emptyObject with
    defaults := .loaded 3 (.fails "offline")
    handler := some [⟨5, .fails (.rejected "busy")⟩]
    onInvalid := some .steady }

/-- While a submission is under way a field is made required and another submission is asked for.
The first one fails, which stops the second. -/
theorem failures_reported_both :
    ∃ log m, Course (.opening .unlucky 0 .new) log m ∧
      m.form.notices =
        [("Failed to save changes", "busy"), ("Failed to load form values", "offline")] ∧
      (m.form.failedCycles.map Prod.fst).Nodup ∧
      ∃ x ∈ log, ∃ s b, x.1.stop? x.2 = some s ∧ s.waiters = [2] ∧
        m.form.complaints = [s.errors] ∧ x.1.perform? x.2 = some b ∧ s.Stopped b.scene := by
  obtain ⟨log, m, course, -, passed⟩ := Moment.course_of_test (.opening .unlucky 0 .new)
    [.ask 0 .submit, .handle, .startCall 0 0, .ask 1 (.register ⟨["x"]⟩ ⟨none, [.required], none⟩),
      .handle, .ask 2 .submit, .handle, .pass 5, .finishLoad, .handle, .endCall 0 0, .finishRun 0,
      .handle]
    (fun log m => !m.form.failed && decide (log.failures.map (Failure.notice .english) =
      [("Failed to save changes", "busy"), ("Failed to load form values", "offline")]) &&
      log.any fun x => (x.1.stop? x.2).any fun s : Attempt => decide (s.waiters = [2]) &&
        decide (log.stops.map Attempt.errors = [s.errors]))
    (by decide +kernel)
  simp only [Bool.and_eq_true, Bool.not_eq_true', decide_eq_true_eq, List.any_eq_true,
    Option.any_eq_true] at passed
  obtain ⟨⟨steady, failures⟩, x, inside, s, stops, waiters, all⟩ := passed
  obtain ⟨notices, -, once, -, complaints, stopped⟩ := failures_reported course steady
  obtain ⟨b, done, stop⟩ := stopped x inside s stops
  exact ⟨log, m, course, notices.trans failures, once, x, inside, s, b, stops, waiters,
    complaints.trans all, done, stop⟩

end

end LiveForm
