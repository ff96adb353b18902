import LiveForm.Proofs.Answers

/-!
# What is put off while a submission is in flight

* `Log.wants`: what the submits and the ends of waits in a log ask for, as one submission;
* `Course.deferred`: it is what is put off, as long as the submission in flight stays the same;
* `Moment.perform?_settled`: when that has settled, its waiters are told how, and what was put off
  is attempted at once.
-/

set_option autoImplicit false

namespace LiveForm

/-! ## What a log asks for -/

namespace Act

/-- The ticket of a submit that is handled. -/
def submit? : Act → Option Ticket
  | .handles (.ask t .submit) => some t
  | _ => none

theorem submit?_eq_some {a : Act} {t : Ticket} :
    a.submit? = some t ↔ a = .handles (.ask t .submit) := by
  constructor
  · intro h
    unfold submit? at h
    split at h
    · cases h
      rfl
    · cases h
  · rintro rfl
    rfl

/-- The current wait is over. -/
def elapses (d : Debounce) : Act → Bool
  | .handles (.debounceElapsed g) => g == d.generation && d.armed
  | _ => false

end Act

namespace Log

/-- The tickets of the submits that are handled, in their order. -/
def submits (log : Log) : List Ticket := log.reverse.filterMap fun x => (x.1.act x.2).submit?

/-- A wait comes to its end. -/
def elapses (log : Log) : Bool := log.any fun x => (x.1.act x.2).elapses x.1.form.debounce

/-- One submission for all submits and ends of waits. It is manual if there is a submit. -/
def wants (log : Log) : Option Deferred :=
  if log.submits ≠ [] then some ⟨.manual, log.submits⟩
  else if log.elapses then some ⟨.auto, []⟩
  else none

variable {x : Moment × Deed} {log : Log}

theorem submits_cons : submits (x :: log) = log.submits ++ (x.1.act x.2).submit?.toList := by
  have one : [x].filterMap (fun x => (x.1.act x.2).submit?) = (x.1.act x.2).submit?.toList := by
    cases h : (x.1.act x.2).submit? <;> simp [h]
  rw [submits, List.reverse_cons, List.filterMap_append, one, submits]

theorem elapses_cons :
    elapses (x :: log) = ((x.1.act x.2).elapses x.1.form.debounce || log.elapses) := rfl

end Log

namespace Coordinator

variable {now : Nat} {c c' : Coordinator} {m : Message} {act : Act}

theorem defer_deferred (c : Coordinator) (trigger : Trigger) (tickets : List Ticket) :
    (c.defer trigger tickets).deferred =
      some (match c.deferred with
        | none => ⟨trigger, tickets⟩
        | some d => ⟨if trigger = .manual then .manual else d.trigger, d.waiters ++ tickets⟩) := by
  unfold defer
  cases c.deferred <;> rfl

/-- A step asks for a submission, or does not. -/
def wanted (c : Coordinator) (act : Act) : Option Deferred :=
  match act.submit? with
  | some t => some ⟨.manual, [t]⟩
  | none => if act.elapses c.debounce then some ⟨.auto, []⟩ else none

/-- What is put off then, if the submission in flight is left alone. -/
def putOff (c : Coordinator) (act : Act) : Option Deferred :=
  match c.wanted act with
  | none => c.deferred
  | some d => (c.defer d.trigger d.waiters).deferred

theorem Attempts.changes {trigger : Trigger} {tickets : List Ticket}
    (h : c.Attempts trigger tickets c') (free : c.pending = none) :
    c'.pending = none ∨ c'.cycles = c.cycles + 1 := by
  cases h with
  | begins => exact .inr rfl
  | halts => exact .inl free

/-- What is put off after a message that leaves the submission in flight alone. -/
theorem Handles.deferred (h : c.Handles now m c') (busy : c'.pending.isSome = true)
    (same : c'.cycles = c.cycles) :
    c.pending.isSome = true ∧ c'.deferred = c.putOff (.handles m) := by
  have attempt {c₀ : Coordinator} {trigger : Trigger} {tickets : List Ticket}
      (h : c₀.Attempts trigger tickets c') (free : c₀.pending = none) (cycles : c₀.cycles = c.cycles) :
      False := by
    rcases h.changes free with none | more
    · simp [none] at busy
    · omega
  cases h with
  | aside quiet =>
    refine ⟨busy, ?_⟩
    cases m with
    | fieldChanged | loaded | hideLoader => rfl
    | _ => cases quiet
  | @told _ request _ aside =>
    refine ⟨busy, ?_⟩
    cases request with
    | submit => cases aside
    | _ => rfl
  | changed =>
    rw [request_pending] at busy
    exact ⟨busy, request_deferred _ _⟩
  | written =>
    simp only [answer, request_pending] at busy
    exact ⟨busy, request_deferred _ _⟩
  | reset | unknown => exact ⟨busy, rfl⟩
  | submitLater busy => exact ⟨busy, rfl⟩
  | submitNow free next => exact (attempt next free rfl).elim
  | @stale g old =>
    refine ⟨busy, ?_⟩
    have not : Act.elapses c.debounce (.handles (.debounceElapsed g)) = false := by
      simpa [Act.elapses] using old
    simp [putOff, wanted, Act.submit?, not]
  | elapsedLater armed busy =>
    refine ⟨busy, ?_⟩
    simp [putOff, wanted, Act.submit?, Act.elapses, armed]
    rfl
  | elapsedNow _ free next => exact (attempt next free rfl).elim
  | settledLast => cases busy
  | settledNext _ _ next => exact (attempt next rfl rfl).elim

/-- What is put off after a step that leaves the submission in flight alone. -/
theorem Step.deferred (h : c.Step now act c') (busy : c'.pending.isSome = true)
    (same : c'.cycles = c.cycles) :
    c.pending.isSome = true ∧ c'.deferred = c.putOff act := by
  cases h with
  | still | call => exact ⟨busy, rfl⟩
  | ask | post | straggle | fire | finish =>
    rw [post_pending] at busy
    exact ⟨busy, post_deferred _ _⟩
  | handle _ handled => exact handled.deferred busy same

/-- A submission that begins has nothing put off behind it. -/
theorem Step.begins (h : c.Step now act c') (orderly : c.Orderly) (more : c.cycles < c'.cycles) :
    c'.deferred = none := by
  have attempt {c₀ : Coordinator} {trigger : Trigger} {tickets : List Ticket}
      (h : c₀.Attempts trigger tickets c') (nothing : c₀.deferred = none) : c'.deferred = none := by
    cases h with
    | begins | halts => exact nothing
  cases h with
  | still | call => exact absurd more (Nat.lt_irrefl _)
  | ask | post | straggle | fire | finish => simp at more
  | handle _ handled =>
    cases handled with
    | submitNow free next | elapsedNow _ free next => exact attempt next (orderly.clear free)
    | settledLast _ last => exact last
    | settledNext _ _ next => exact attempt next rfl
    | changed | written => simp [answer] at more
    | _ => exact absurd more (Nat.lt_irrefl _)

/-- The end of the submission in flight. -/
theorem Handles.settled {cycle : Nat} {failure : Option SubmitError} {p : Pending}
    (h : c.Handles now (.settled cycle failure) c') (flight : c.pending = some p)
    (same : p.cycle = cycle) :
    (c.deferred = none ∧ c' = c.settle p failure) ∨
      ∃ d, c.deferred = some d ∧
        { c.settle p failure with deferred := none }.Attempts d.trigger d.waiters c' := by
  cases h with
  | aside quiet => cases quiet
  | unknown other => exact absurd same (other p flight)
  | settledLast flight' last =>
    cases flight.symm.trans flight'
    exact .inl ⟨last, rfl⟩
  | settledNext flight' waiting next =>
    cases flight.symm.trans flight'
    exact .inr ⟨_, waiting, next⟩

end Coordinator

/-! ## Along a course -/

/-- One more deed adds to what a log wants as it adds to what is put off. -/
theorem Log.wants_cons {x : Moment × Deed} {log : Log} {c : Coordinator}
    (before : c.deferred = log.wants) (same : c.debounce = x.1.form.debounce) :
    Log.wants (x :: log) = c.putOff (x.1.act x.2) := by
  unfold Coordinator.putOff Coordinator.wanted Log.wants
  rw [Log.submits_cons, Log.elapses_cons, same]
  unfold Log.wants at before
  cases submit : (x.1.act x.2).submit? with
  | some t =>
    simp only [Coordinator.defer_deferred, before]
    by_cases none : log.submits = []
    · cases elapsed : log.elapses <;> simp [none]
    · simp [none]
  | none =>
    cases (x.1.act x.2).elapses x.1.form.debounce with
    | false => simp [before]
    | true =>
      simp only [Coordinator.defer_deferred, before]
      by_cases none : log.submits = []
      · cases elapsed : log.elapses <;> simp [none]
      · simp [none]

section

variable {a b m : Moment} {d : Deed} {log : Log}

/-- While the same submission is in flight, what is put off is what has been asked for since. -/
theorem Course.deferred (course : Course b log m) (alive : m.form.alive = true)
    (first : b.form.deferred = none) (busy : m.form.pending.isSome = true)
    (same : m.form.cycles = b.form.cycles) : m.form.deferred = log.wants := by
  induction course with
  | here => exact first
  | @next log a m d before done ih =>
    have living := Moment.perform?_alive done alive
    have step := (Moment.perform?_leaves done).step alive
    have lower : b.form.cycles ≤ a.form.cycles := before.cycles living
    have upper : a.form.cycles ≤ m.form.cycles := step.cycles
    have kept : m.form.cycles = a.form.cycles := by omega
    obtain ⟨flying, put⟩ := step.deferred (by simpa [Form.coordinator] using busy) kept
    have earlier := ih living (by simpa [Form.coordinator] using flying) (by omega)
    exact put.trans (Log.wants_cons (x := (a, d)) (c := a.form.coordinator) earlier rfl).symm

end

/-- From `a` to `b` the submission that was put off is attempted: it begins, or invalid fields stop it
and its waiters are told so. -/
def Attempted (a b : Form) (next : Deferred) : Prop :=
  (∃ p, b.pending = some p ∧ b.attempts = .began p.cycle next.trigger :: a.attempts ∧
    p.waiters = next.waiters) ∨
  (∃ errors, b.pending = none ∧ b.attempts = .halted next.trigger errors :: a.attempts ∧
    ∀ t ∈ next.waiters, .answered t (.outcome (.invalid errors)) ∈ b.history)

/-- From `a` to `b` the submission in flight settles, and its waiters are told how. What was put off
is attempted at once, and nothing else is. -/
structure Settles (a b : Form) (p : Pending) (failure : Option SubmitError)
    (next : Option Deferred) : Prop where
  told : ∀ t ∈ p.waiters, .answered t (.outcome (p.outcome failure)) ∈ b.history
  clear : b.deferred = none
  last : next = none → b.pending = none ∧ b.attempts = a.attempts
  attempted : ∀ d, next = some d → Attempted a b d

section

variable {a b m : Moment} {d : Deed} {log : Log} {p : Pending} {failure : Option SubmitError}

theorem mem_record {f : Form} {e : Event} (h : e ∈ f.coordinator.record) : e ∈ f.history :=
  (List.mem_filter.mp h).1

theorem Coordinator.mem_told (c : Coordinator) {tickets : List Ticket} {reply : Reply} {t : Ticket}
    (among : t ∈ tickets) : .answered t reply ∈ (c.answer tickets reply).record :=
  List.mem_append_left _ (List.mem_reverse.mpr (List.mem_map_of_mem among))

theorem pending_of_coordinator {f : Form} (h : f.coordinator.pending = none) : f.pending = none :=
  Option.map_eq_none_iff.mp h

/-- What was put off is attempted. -/
theorem Coordinator.Attempts.attempted {a b : Form} {c : Coordinator} {next : Deferred}
    (h : c.Attempts next.trigger next.waiters b.coordinator) (free : c.pending = none)
    (same : c.attempts = a.attempts) : Attempted a b next := by
  generalize after : b.coordinator = c' at h
  have attempts : b.attempts = c'.attempts := by rw [← after, Form.coordinator_attempts]
  cases h with
  | @begins p run cycle cause crowd =>
    obtain ⟨q, pending, rfl⟩ := Option.map_eq_some_iff.mp (congrArg Coordinator.pending after)
    refine .inl ⟨q, pending, ?_, crowd⟩
    rw [attempts, begin_attempts, same, ← cause, ← cycle]
    rfl
  | @halts errors =>
    have none : b.pending = none := pending_of_coordinator (after ▸ free)
    refine .inr ⟨errors, none, ?_, fun t among => mem_record ?_⟩
    · rw [attempts, halt_attempts, same]
    · rw [after]
      exact Coordinator.mem_told _ among

theorem Moment.perform?_settled (h : a.perform? d = some b) (alive : b.form.alive = true)
    (handles : a.act d = .handles (.settled p.cycle failure)) (flight : a.form.pending = some p) :
    Settles a.form b.form p failure a.form.deferred := by
  have step := (perform?_leaves h).step alive
  rw [handles] at step
  cases step with
  | @handle _ rest _ _ handled =>
    have busy : a.form.coordinator.pending = some p.regardless := by simp [Form.coordinator, flight]
    have told (t : Ticket) (among : t ∈ p.waiters) :
        .answered t (.outcome (p.outcome failure)) ∈
          ({ a.form.coordinator with mailbox := rest }.settle p.regardless failure).record :=
      Coordinator.mem_told _ among
    have same := Coordinator.settle_attempts { a.form.coordinator with mailbox := rest }
      p.regardless failure
    have attempts : a.form.coordinator.attempts = a.form.attempts := a.form.coordinator_attempts
    rcases handled.settled busy rfl with ⟨last, eq⟩ | ⟨next, waiting, attempt⟩
    · have last : a.form.deferred = none := last
      refine ⟨fun t among => mem_record (eq ▸ told t among), ?_, fun _ => ⟨?_, ?_⟩, ?_⟩
      · exact (congrArg Coordinator.deferred eq).trans last
      · exact pending_of_coordinator (congrArg Coordinator.pending eq)
      · rw [← Form.coordinator_attempts, eq]
        exact same.trans attempts
      · intro d waiting
        simp [last] at waiting
    · have waiting : a.form.deferred = some next := waiting
      refine ⟨fun t among => mem_record (attempt.record.subset (told t among)), ?_, ?_, ?_⟩
      · exact attempt.waits.2.2
      · intro last
        simp [waiting] at last
      · intro d eq
        obtain rfl : next = d := by simpa [waiting] using eq
        exact attempt.attempted rfl (same.trans attempts)

theorem eq_of_countP_le_one {α : Type} {l : List α} {test : α → Bool} (h : l.countP test ≤ 1)
    {x y : α} (hx : x ∈ l) (hy : y ∈ l) (px : test x = true) (py : test y = true) : x = y := by
  rw [List.countP_eq_length_filter] at h
  have fx := List.mem_filter.mpr ⟨hx, px⟩
  have fy := List.mem_filter.mpr ⟨hy, py⟩
  match l.filter test, h, fx, fy with
  | [z], _, fx, fy => rw [List.mem_singleton.mp fx, List.mem_singleton.mp fy]

/-- Those who wait for the submission in flight are told nothing else, also when the form falls. -/
theorem Moment.perform?_settled_only (h : a.perform? d = some b) (ticketed : a.Ticketed)
    (handles : a.act d = .handles (.settled p.cycle failure)) (flight : a.form.pending = some p)
    {t : Ticket} (waits : t ∈ p.waiters) {reply : Reply}
    (answered : .answered t reply ∈ b.form.coordinator.record) :
    reply = .outcome (p.outcome failure) := by
  obtain ⟨last, step, part⟩ : ∃ last, a.form.coordinator.Step a.now (a.act d) last ∧
      b.form.coordinator.record <:+ last.record := by
    cases perform?_leaves h with
    | whole step => exact ⟨_, step, List.suffix_rfl⟩
    | rest step _ before => exact ⟨_, step, before.record⟩
  have placed := step.placed t
  have once := ticketed.once t
  rw [handles] at step placed
  have few : last.answersTo t ≤ 1 := by
    simp only [Act.passed, Message.ticket?, Option.toList_none, List.count_nil] at placed
    simp only [Coordinator.placed] at placed once
    omega
  have told : .answered t (.outcome (p.outcome failure)) ∈ last.record := by
    have busy : a.form.coordinator.pending = some p.regardless := by simp [Form.coordinator, flight]
    cases step with
    | handle _ handled =>
      rcases handled.settled busy rfl with ⟨_, rfl⟩ | ⟨_, _, attempt⟩
      · exact Coordinator.mem_told _ waits
      · exact attempt.record.subset (Coordinator.mem_told _ waits)
  have same := eq_of_countP_le_one few (part.subset answered) told (by simp [Event.isAnswerTo])
    (by simp [Event.isAnswerTo])
  cases same
  rfl

end

end LiveForm
