import LiveForm.Proofs.Content
import LiveForm.Proofs.Waiters

/-!
# Where answers come from

Who asks for a submission is told what came of an attempt: of one that began a submission, when that
has settled, or of one that invalid fields stopped. The attempt is made after the request has been
heard, so it sees all that was there then.

* `Coordinator.Step.answers`: a step gives outcomes to the waiters of the submission in flight, or
  to those of an attempt that it halts;
* `Traced`: what is known of a ticket since its request was handled;
* `Course.traced`: it is known on every course.
-/

set_option autoImplicit false

namespace LiveForm

/-! ## What a step answers -/

namespace Coordinator

variable {now : Nat} {c c' : Coordinator} {m : Message} {act : Act} {t : Ticket} {reply : Reply}
  {r : List Event}

theorem mem_answer {tickets : List Ticket} {told : Reply}
    (h : .answered t reply ∈ (c.answer tickets told).record) :
    .answered t reply ∈ c.record ∨ t ∈ tickets ∧ reply = told := by
  rcases List.mem_append.mp h with new | old
  · obtain ⟨t', among, eq⟩ := List.mem_map.mp (List.mem_reverse.mp new)
    cases eq
    exact .inr ⟨among, rfl⟩
  · exact .inl old

theorem mem_settle {p : Pending} {failure : Option SubmitError}
    (h : .answered t reply ∈ (c.settle p failure).record) :
    .answered t reply ∈ c.record ∨ t ∈ p.waiters ∧ reply = .outcome (p.outcome failure) := by
  rcases mem_answer h with old | told
  · rcases List.mem_cons.mp old with eq | old
    · cases eq
    · exact .inl old
  · exact .inr told

/-- An attempt that answers has been halted. A part of its record that has an answer has the halt,
as that came before. -/
theorem Attempts.answers {trigger : Trigger} {tickets : List Ticket}
    (h : c.Attempts trigger tickets c') (part : r <:+ c'.record) (answered : .answered t reply ∈ r) :
    .answered t reply ∈ c.record ∨ ∃ errors, reply = .outcome (.invalid errors) ∧
      r.filter Event.isAttempt = .halted trigger errors :: c.attempts := by
  cases h with
  | begins =>
    rcases List.mem_cons.mp (part.subset answered) with eq | old
    · cases eq
    · exact .inl old
  | @halts errors _ =>
    have inHalt (h : .answered t reply ∈ Event.halted trigger errors :: c.record) :
        .answered t reply ∈ c.record := by
      rcases List.mem_cons.mp h with eq | old
      · cases eq
      · exact old
    have halt : .halted trigger errors :: c.record <:+ (c.halt trigger tickets errors).record :=
      List.suffix_append _ _
    rcases List.suffix_or_suffix_of_suffix part halt with before | after
    · exact .inl (inHalt (before.subset answered))
    · rcases mem_answer (part.subset answered) with old | ⟨_, told⟩
      · exact .inl (inHalt old)
      · have most := part.filter Event.isAttempt
        have least := after.filter Event.isAttempt
        change _ <:+ (c.halt trigger tickets errors).attempts at most
        rw [halt_attempts] at most
        exact .inr ⟨errors, told, most.eq_of_length_le least.length_le⟩

/-- The answers that handling a message gives: to the waiters of the submission in flight, to those
of an attempt that it halts, and to whoever asks for something else. -/
theorem Handles.answers (h : c.Handles now m c') (part : r <:+ c'.record)
    (answered : .answered t reply ∈ r) :
    .answered t reply ∈ c.record ∨
      (∃ p failure, c.pending = some p ∧ t ∈ p.waiters ∧ reply = .outcome (p.outcome failure)) ∨
      (∃ trigger errors, reply = .outcome (.invalid errors) ∧
        r.filter Event.isAttempt = .halted trigger errors :: c.attempts) ∨
      ∃ request, m = .ask t request ∧ request ≠ .submit := by
  have attempt {c : Coordinator} {trigger : Trigger} {tickets : List Ticket}
      (h : c.Attempts trigger tickets c') := h.answers part answered
  cases h with
  | aside | stale | unknown | submitLater | elapsedLater => exact .inl (part.subset answered)
  | told aside =>
    rcases mem_answer (part.subset answered) with old | ⟨among, _⟩
    · exact .inl old
    · obtain rfl := List.mem_singleton.mp among
      exact .inr (.inr (.inr ⟨_, rfl, by rintro rfl; cases aside⟩))
  | changed =>
    rw [request_record] at part
    exact .inl (part.subset answered)
  | written =>
    rcases mem_answer (part.subset answered) with old | ⟨among, _⟩
    · rw [request_record] at old
      exact .inl old
    · obtain rfl := List.mem_singleton.mp among
      exact .inr (.inr (.inr ⟨_, rfl, by rintro ⟨⟩⟩))
  | reset =>
    rcases mem_answer (part.subset answered) with old | ⟨among, _⟩
    · exact .inl old
    · obtain rfl := List.mem_singleton.mp among
      exact .inr (.inr (.inr ⟨_, rfl, by rintro ⟨⟩⟩))
  | submitNow _ next | elapsedNow _ _ next =>
    rcases attempt next with old | ⟨errors, eq, halted⟩
    · exact .inl old
    · exact .inr (.inr (.inl ⟨_, errors, eq, halted⟩))
  | @settledLast p failure flight =>
    rcases mem_settle (part.subset answered) with old | told
    · exact .inl old
    · exact .inr (.inl ⟨p, failure, flight, told⟩)
  | @settledNext p d failure _ flight _ next =>
    rcases attempt next with settled | ⟨errors, eq, halted⟩
    · rcases mem_settle settled with old | told
      · exact .inl old
      · exact .inr (.inl ⟨p, failure, flight, told⟩)
    · exact .inr (.inr (.inl
        ⟨_, errors, eq, halted.trans (congrArg _ (settle_attempts c p failure))⟩))

theorem Step.answers (h : c.Step now act c') (part : r <:+ c'.record)
    (answered : .answered t reply ∈ r) :
    .answered t reply ∈ c.record ∨
      (∃ p failure, c.pending = some p ∧ t ∈ p.waiters ∧ reply = .outcome (p.outcome failure)) ∨
      (∃ trigger errors, reply = .outcome (.invalid errors) ∧
        r.filter Event.isAttempt = .halted trigger errors :: c.attempts) ∨
      ∃ request, act = .handles (.ask t request) ∧ request ≠ .submit := by
  cases h with
  | still | call => exact .inl (part.subset answered)
  | ask | post | straggle | fire | finish =>
    rw [post_record] at part
    exact .inl (part.subset answered)
  | handle _ handled =>
    rcases handled.answers part answered with old | told | told | ⟨request, rfl, other⟩
    · exact .inl old
    · exact .inr (.inl told)
    · exact .inr (.inr (.inl told))
    · exact .inr (.inr (.inr ⟨request, rfl, other⟩))

theorem Attempts.flight {trigger : Trigger} {tickets : List Ticket} {q : Pending}
    (h : c.Attempts trigger tickets c') (flight : c'.pending = some q) :
    c.pending = some q ∨
      q.cycle = c.cycles + 1 ∧ c'.attempts = .began q.cycle q.trigger :: c.attempts := by
  cases h with
  | begins cycle =>
    cases flight
    exact .inr ⟨cycle, cycle ▸ begin_attempts _ _ _⟩
  | halts => exact .inl flight

/-- The submission in flight is the one there was, or has begun in this step. -/
theorem Step.flight {q : Pending} (h : c.Step now act c') (flight : c'.pending = some q) :
    c.pending = some q ∨
      q.cycle = c.cycles + 1 ∧ c'.attempts = .began q.cycle q.trigger :: c.attempts := by
  cases h with
  | still | call => exact .inl flight
  | ask | post | straggle | fire | finish => exact .inl (by simpa using flight)
  | handle _ handled =>
    cases handled with
    | aside | told | reset | stale | unknown | submitLater | elapsedLater => exact .inl flight
    | changed | written => exact .inl (by simpa [answer] using flight)
    | submitNow _ next | elapsedNow _ _ next => exact next.flight flight
    | settledLast => cases flight
    | @settledNext p _ failure _ _ _ next =>
      rcases next.flight flight with none | ⟨cycle, began⟩
      · cases none
      · exact .inr ⟨cycle, began.trans (congrArg _ (settle_attempts _ p failure))⟩

theorem Attempts.cycles {trigger : Trigger} {tickets : List Ticket}
    (h : c.Attempts trigger tickets c') : c.cycles ≤ c'.cycles := by
  cases h with
  | begins => exact Nat.le_succ _
  | halts => exact Nat.le_refl _

theorem Step.cycles (h : c.Step now act c') : c.cycles ≤ c'.cycles := by
  cases h with
  | still | call => exact Nat.le_refl _
  | ask | post | straggle | fire | finish => simp
  | handle _ handled =>
    cases handled with
    | submitNow _ next | elapsedNow _ _ next | settledNext _ _ next => exact next.cycles
    | changed | written => simp [answer]
    | _ => exact Nat.le_refl _

end Coordinator

theorem Course.cycles {a m : Moment} {log : Log} (course : Course a log m)
    (alive : m.form.alive = true) : a.form.cycles ≤ m.form.cycles := by
  induction course with
  | here => exact Nat.le_refl _
  | next _ done ih =>
    exact Nat.le_trans (ih (Moment.perform?_alive done alive))
      ((Moment.perform?_leaves done).step alive).cycles

/-! ## Since a request was handled -/

/-- From `a` to `b` a submission begins that is not in flight in `n`. All fields are valid, and it
takes the values that are there. -/
structure Begins (n a b : Form) (p : Pending) : Prop where
  attempt : b.attempts = .began p.cycle p.trigger :: a.attempts
  flight : b.pending = some p
  valid : b.currentErrors = []
  values : p.values = b.store.values
  dirtyValues : p.dirtyValues = b.store.dirtyValues
  later : ∀ p₀, n.pending = some p₀ → p₀.cycle < p.cycle

/-- From `a` to `b` there is an attempt that leads to an outcome. -/
def LeadsTo (n a b : Form) : SubmitOutcome → Prop
  | .submitted id dirtyValues =>
    ∃ p, Begins n a b p ∧ id = submissionId p.cycle ∧ dirtyValues = p.dirtyValues
  | .rejected id _ => ∃ p, Begins n a b p ∧ id = submissionId p.cycle
  | .invalid errors =>
    (∃ trigger, b.attempts = .halted trigger errors :: a.attempts) ∧ errors = b.currentErrors

/-- What is known of a ticket since its request was handled in `n`: if it waits for the submission
in flight, this has begun since, and what it has been told came of an attempt made since. -/
structure Traced (n : Form) (t : Ticket) (log : Log) (m : Moment) : Prop where
  cycles : m.form.alive = true → n.cycles ≤ m.form.cycles
  flight : ∀ q, m.form.coordinator.pending = some q → t ∈ q.waiters →
    ∃ x ∈ log, ∃ b p, x.1.perform? x.2 = some b ∧ Begins n x.1.form b.form p ∧ p.regardless = q
  answers : ∀ reply, .answered t reply ∈ m.form.coordinator.record →
    ∃ o, reply = .outcome o ∧
      ∃ x ∈ log, ∃ b, x.1.perform? x.2 = some b ∧ LeadsTo n x.1.form b.form o

section

variable {n : Form} {a b m : Moment} {d : Deed} {log : Log} {t : Ticket}

theorem Begins.leadsTo {a b : Form} {p q : Pending} (h : Begins n a b p) (same : p.regardless = q)
    (failure : Option SubmitError) : LeadsTo n a b (q.outcome failure) := by
  subst same
  cases failure with
  | none => exact ⟨p, h, rfl, rfl⟩
  | some => exact ⟨p, h, rfl⟩

/-- An attempt made in a deed tells how the form is afterwards. -/
theorem Form.AttemptsOnce.tells {f g : Form} {e : Event} (once : f.AttemptsOnce g)
    (more : g.attempts = e :: f.attempts) : e.Tells g := by
  rcases once with same | ⟨e', eq, tells⟩
  · rw [more] at same
    exact absurd same (List.cons_ne_self _ _)
  · rw [more] at eq
    exact (List.cons_eq_cons.mp eq).1 ▸ tells

/-- A submission that begins in a deed is not in flight in any form that came before. -/
theorem Moment.perform?_begins (h : a.perform? d = some b) (alive : b.form.alive = true)
    (started : ∀ p₀, n.pending = some p₀ → p₀.cycle ≤ a.form.cycles) {q : Pending}
    (flight : b.form.coordinator.pending = some q) (cycle : q.cycle = a.form.cycles + 1)
    (began : b.form.attempts = .began q.cycle q.trigger :: a.form.attempts) :
    ∃ p, Begins n a.form b.form p ∧ p.regardless = q := by
  obtain ⟨p, pending, rfl⟩ := Option.map_eq_some_iff.mp flight
  obtain ⟨valid, told⟩ := (perform?_attempts h).tells began
  obtain ⟨p', pending', _, _, values, dirtyValues⟩ := told alive
  obtain rfl : p = p' := by simpa [pending] using pending'
  refine ⟨p, ⟨began, pending, valid, values, dirtyValues, ?_⟩, rfl⟩
  intro p₀ before
  exact Nat.lt_of_le_of_lt (started p₀ before) (cycle ▸ Nat.lt_succ_self _)

theorem Traced.step (traced : Traced n t log a) (h : a.perform? d = some b)
    (gone : b.form.alive = false → b.form.coordinator.Ended)
    (started : ∀ p₀, n.pending = some p₀ → p₀.cycle ≤ n.cycles)
    (asked : ∀ request, a.act d = .handles (.ask t request) → request = .submit) :
    Traced n t ((a, d) :: log) b := by
  have leaves := Moment.perform?_leaves h
  constructor
  · intro alive
    exact Nat.le_trans (traced.cycles (Moment.perform?_alive h alive)) (leaves.step alive).cycles
  · intro q flight among
    cases alive : b.form.alive with
    | false => simp [(gone alive).landed] at flight
    | true =>
      rcases (leaves.step alive).flight flight with old | ⟨cycle, began⟩
      · obtain ⟨x, past, rest⟩ := traced.flight q old among
        exact ⟨x, List.mem_cons_of_mem _ past, rest⟩
      · simp only [Form.coordinator_attempts] at began
        have before := traced.cycles (Moment.perform?_alive h alive)
        obtain ⟨p, begins, same⟩ := Moment.perform?_begins h alive
          (fun p₀ eq => Nat.le_trans (started p₀ eq) before) flight cycle began
        exact ⟨_, List.mem_cons_self, b, p, h, begins, same⟩
  · intro reply answered
    obtain ⟨last, step, part⟩ : ∃ last, a.form.coordinator.Step a.now (a.act d) last ∧
        b.form.coordinator.record <:+ last.record := by
      cases leaves with
      | whole step => exact ⟨_, step, List.suffix_rfl⟩
      | rest step _ before => exact ⟨_, step, before.record⟩
    rcases step.answers part answered with old | ⟨p, failure, flight, among, rfl⟩ |
      ⟨trigger, errors, rfl, halted⟩ | ⟨request, handles, other⟩
    · obtain ⟨o, eq, x, past, rest⟩ := traced.answers reply old
      exact ⟨o, eq, x, List.mem_cons_of_mem _ past, rest⟩
    · obtain ⟨x, past, b', p', done, begins, same⟩ := traced.flight p flight among
      exact ⟨_, rfl, x, List.mem_cons_of_mem _ past, b', done, begins.leadsTo same failure⟩
    · have halted : b.form.attempts = .halted trigger errors :: a.form.attempts := by
        rw [← Form.coordinator_attempts, ← Form.coordinator_attempts]
        exact halted
      have tells := (Moment.perform?_attempts h).tells halted
      exact ⟨_, rfl, _, List.mem_cons_self, b, h, ⟨trigger, halted⟩, tells.1⟩
    · exact absurd (asked request handles) other

/-- A ticket that is asking is with no waiters and has no answer. -/
theorem Moment.Ticketed.unplaced (ticketed : a.Ticketed) {request : Request}
    (asks : .ask t request ∈ a.form.mailbox) : a.form.coordinator.placed t = 0 := by
  have asking : 0 < a.form.coordinator.asking t :=
    List.count_pos_iff.mpr (List.mem_filterMap.mpr ⟨_, asks, rfl⟩)
  have once := ticketed.once t
  omega

theorem Traced.first (ticketed : a.Ticketed) {request : Request}
    (asks : .ask t request ∈ a.form.mailbox) : Traced a.form t [] a := by
  have none := ticketed.unplaced asks
  refine ⟨fun _ => Nat.le_refl _, ?_, ?_⟩
  · intro q flight among
    have waits : 0 < a.form.coordinator.waiters.count t := by
      simpa [Coordinator.waiters, flight] using among
    simp only [Coordinator.placed] at none
    omega
  · intro reply answered
    have told : 0 < a.form.coordinator.answersTo t :=
      List.countP_pos_iff.mpr ⟨_, answered, by simp [Event.isAnswerTo]⟩
    simp only [Coordinator.placed] at none
    omega

/-- A ticket stays with a form that lives. -/
theorem Course.placed (course : Course a log m) (alive : m.form.alive = true) (t : Ticket) :
    a.form.coordinator.placed t ≤ m.form.coordinator.placed t := by
  induction course with
  | here => exact Nat.le_refl _
  | next _ done ih =>
    have step := (Moment.perform?_leaves done).step alive
    exact Nat.le_trans (ih (Moment.perform?_alive done alive))
      (step.placed t ▸ Nat.le_add_right _ _)

theorem Moment.mem_of_handles {message : Message} (h : a.act d = .handles message) :
    message ∈ a.form.mailbox := by
  obtain ⟨rest, mailbox, _⟩ := perform?_of_handles h
  exact mailbox ▸ List.mem_cons_self

/-- A form that has heard of something and has not handled it lives. -/
theorem Moment.alive_of_heard {message : Message} (one : a.form.coordinator.OneFlight)
    (heard : message ∈ a.form.mailbox) : a.form.alive = true := by
  by_contra dead
  have unheard : a.form.mailbox = [] := (one.fallen (Bool.eq_false_iff.mpr dead)).1.unheard
  rw [unheard] at heard
  cases heard

/-- Only a living form handles messages. -/
theorem Moment.alive_of_handles {message : Message} (one : a.form.coordinator.OneFlight)
    (h : a.act d = .handles message) : a.form.alive = true :=
  alive_of_heard one (mem_of_handles h)

/-- Whatever happens after a submit was handled, it is traced. -/
theorem Course.traced {c : FormConfig} {now : Nat} {guard : UnloadGuard} {n : Moment}
    {earlier : Log} (before : Course (.opening c now guard) earlier n)
    (handles : n.act d = .handles (.ask t .submit)) (done : n.perform? d = some b)
    (after : Course b log m) : Traced n.form t (log ++ [(n, d)]) m := by
  have alive := Moment.alive_of_handles (one_flight before) handles
  have started (p₀ : Pending) (flight : n.form.pending = some p₀) : p₀.cycle ≤ n.form.cycles :=
    Nat.le_of_eq ((orderly before alive).last p₀.regardless (by simp [Form.coordinator, flight]))
  induction after with
  | here =>
    have one := one_flight (before.next done)
    refine (Traced.first (ticketed before) (Moment.mem_of_handles handles)).step done
      (fun dead => (one.fallen dead).1) started ?_
    intro request same
    rw [handles] at same
    cases same
    rfl
  | next course later ih =>
    have whole := (before.next done).append course
    have one := one_flight (whole.next later)
    refine ih.step later (fun dead => (one.fallen dead).1) started ?_
    intro request same
    -- The ticket is with the form already, so nobody can be asking with it.
    have living := Moment.alive_of_handles (one_flight whole) same
    have none := (ticketed whole).unplaced (Moment.mem_of_handles same)
    have first := ((Moment.perform?_leaves done).step (course.alive_before living)).placed t
    have kept := course.placed living t
    rw [handles] at first
    simp [Act.passed, Message.ticket?] at first
    omega

end

end LiveForm
