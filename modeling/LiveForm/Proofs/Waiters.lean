import LiveForm.Proofs.SingleFlight

/-!
# Who waits for an answer

Whoever asks a form for something is in one place after another: in the mailbox, behind the
submission in flight, behind the one put off, and at last among those who were answered.

* `Coordinator.asking` and `Coordinator.placed` count these places for one ticket;
* `Coordinator.Step.placed`, `Coordinator.Step.asking`: a step moves tickets from place to place, and
  only asking adds one;
* `ticketed`: so no ticket is in two places.
-/

set_option autoImplicit false

namespace LiveForm

def Event.isAnswerTo (t : Ticket) : Event → Bool
  | .answered t' _ => t' == t
  | _ => false

/-- The ticket of a new request. -/
def Act.ticket? : Act → Option Ticket
  | .asks t => some t
  | _ => none

/-- The ticket of a request that is handled. -/
def Act.passed : Act → List Ticket
  | .handles m => m.ticket?.toList
  | _ => []

namespace Form

/-- Those who are told how the submission in flight ends. -/
def waiters (f : Form) : List Ticket := (f.pending.map Pending.waiters).getD []

/-- Those who are told how the submission put off ends. -/
def nextWaiters (f : Form) : List Ticket := (f.deferred.map Deferred.waiters).getD []

def answersTo (f : Form) (t : Ticket) : Nat := f.history.countP (Event.isAnswerTo t)

end Form

namespace Coordinator

variable {now : Nat} {c c' : Coordinator} {m : Message} {act : Act} (t : Ticket)

def waiters (c : Coordinator) : List Ticket := (c.pending.map Pending.waiters).getD []

def nextWaiters (c : Coordinator) : List Ticket := (c.deferred.map Deferred.waiters).getD []

def answersTo (c : Coordinator) (t : Ticket) : Nat := c.record.countP (Event.isAnswerTo t)

/-- How often a ticket is asking in the mailbox. -/
def asking (c : Coordinator) (t : Ticket) : Nat := (c.mailbox.filterMap Message.ticket?).count t

/-- How often a ticket is with the waiters or the answered. -/
def placed (c : Coordinator) (t : Ticket) : Nat :=
  c.waiters.count t + c.nextWaiters.count t + c.answersTo t

theorem tickets_cons (m : Message) (rest : List Message) :
    (m :: rest).filterMap Message.ticket? = m.ticket?.toList ++ rest.filterMap Message.ticket? := by
  cases m <;> rfl

theorem post_asking (alive : c.alive = true) (m : Message) :
    (c.post m).asking t = c.asking t + m.ticket?.toList.count t := by
  simp only [asking, post_mailbox alive, List.filterMap_append, List.count_append, tickets_cons,
    List.filterMap_nil, List.count_nil, Nat.add_zero]

@[simp] theorem post_placed (c : Coordinator) (m : Message) : (c.post m).placed t = c.placed t := by
  simp [placed, waiters, nextWaiters, answersTo]

/-- Setting the wait anew posts no more than a notice. -/
theorem request_asking (alive : c.alive = true) : (c.request now).asking t = c.asking t := by
  unfold request
  dsimp only
  split
  · rw [post_asking]
    · rfl
    · exact alive
  · rfl

@[simp] theorem request_placed (c : Coordinator) : (c.request now).placed t = c.placed t := by
  simp [placed, waiters, nextWaiters, answersTo]

theorem answer_placed (c : Coordinator) (tickets : List Ticket) (reply : Reply) :
    (c.answer tickets reply).placed t = c.placed t + tickets.count t := by
  have told : (c.answer tickets reply).answersTo t = tickets.count t + c.answersTo t := by
    simp only [answer, answersTo, List.countP_append, List.countP_reverse, List.countP_map]
    rfl
  simp only [placed, told]
  simp only [answer, waiters, nextWaiters]
  omega

theorem defer_placed (c : Coordinator) (trigger : Trigger) (tickets : List Ticket) :
    (c.defer trigger tickets).placed t = c.placed t + tickets.count t := by
  unfold defer
  cases next : c.deferred with
  | none =>
    simp only [placed, waiters, nextWaiters, answersTo, next, Option.map_none, Option.map_some,
      Option.getD_none, Option.getD_some, List.count_nil]
    omega
  | some d =>
    simp only [placed, waiters, nextWaiters, answersTo, next, Option.map_some, Option.getD_some,
      List.count_append]
    omega

/-- Those who wait for an attempt wait for the submission that has begun, or have been answered. -/
theorem Attempts.placed {trigger : Trigger} {tickets : List Ticket}
    (h : c.Attempts trigger tickets c') (free : c.pending = none) :
    c'.placed t = c.placed t + tickets.count t := by
  cases h with
  | begins _ _ crowd =>
    simp [begin, Coordinator.placed, waiters, nextWaiters, answersTo, free, crowd, Event.isAnswerTo]
    omega
  | halts =>
    rw [halt, answer_placed]
    simp [Coordinator.placed, waiters, nextWaiters, answersTo, Event.isAnswerTo]

/-- Those who wait for the submission in flight are answered when it settles. -/
theorem settle_placed {p : Pending} (flight : c.pending = some p) (failure : Option SubmitError) :
    (c.settle p failure).placed t = c.placed t := by
  rw [settle, answer_placed]
  simp [Coordinator.placed, waiters, nextWaiters, answersTo, flight, Event.isAnswerTo]
  omega

/-- Handling a message takes no other request out of the mailbox. -/
theorem Handles.asking (h : c.Handles now m c') (alive : c.alive = true) :
    c'.asking t = c.asking t := by
  cases h with
  | submitNow _ next | elapsedNow _ _ next | settledNext _ _ next =>
    exact congrArg (fun mailbox => (mailbox.filterMap Message.ticket?).count t) next.waits.2.1
  | changed | written => exact request_asking t alive
  | _ => rfl

/-- Handling a request passes its ticket on. -/
theorem Handles.placed (h : c.Handles now m c') :
    c'.placed t = c.placed t + m.ticket?.toList.count t := by
  cases h with
  | aside quiet =>
    cases m with
    | ask => cases quiet
    | _ => rfl
  | told => exact answer_placed t c _ _
  | reset => exact answer_placed t c.cancel _ _
  | changed => exact request_placed t c
  | written =>
    rw [answer_placed, request_placed]
    rfl
  | stale | unknown => rfl
  | submitLater => exact defer_placed t c .manual _
  | elapsedLater => exact defer_placed t c.cancel .auto []
  | submitNow free next => exact next.placed t free
  | elapsedNow _ free next => exact next.placed t free
  | settledLast flight => exact settle_placed t flight _
  | @settledNext p d failure _ flight waiting next =>
    have same : (c.settle p failure).deferred = some d := waiting
    rw [next.placed t rfl, ← settle_placed t flight failure]
    simp [Coordinator.placed, waiters, nextWaiters, answersTo, same, Message.ticket?]
    omega

/-- A ticket is passed on when its request is handled, and stays with the form ever after. -/
theorem Step.placed (h : c.Step now act c') :
    c'.placed t = c.placed t + act.passed.count t := by
  cases h with
  | still | call => rfl
  | ask | post | straggle | fire | finish => exact post_placed t _ _
  | handle _ handled => exact handled.placed t

/-- A ticket is asking from when it is asked for until its request is handled. -/
theorem Step.asking (h : c.Step now act c') (alive : c.alive = true) :
    c'.asking t + act.passed.count t = c.asking t + act.ticket?.toList.count t := by
  cases h with
  | still | call => rfl
  | ask => exact post_asking t alive _
  | post aside =>
    rename_i m
    rw [post_asking t alive]
    cases m with
    | ask => cases aside
    | _ => rfl
  | straggle => exact congrArg (· + 0) (post_asking t alive _)
  | fire | finish =>
    rw [post_asking]
    · rfl
    · exact alive
  | handle mailbox handled =>
    rename_i m rest
    rw [handled.asking t alive]
    simp only [Coordinator.asking, mailbox, tickets_cons, List.count_append, Act.ticket?, Act.passed,
      Option.toList_none, List.count_nil]
    omega

theorem Ended.placed_le (gone : c'.Ended) (before : c'.Precedes c) :
    c'.asking t + c'.placed t ≤ c.placed t := by
  have told : c'.answersTo t ≤ c.answersTo t := before.record.sublist.countP_le
  have left : c'.asking t + c'.placed t = c'.answersTo t := by
    simp [Coordinator.asking, Coordinator.placed, waiters, nextWaiters, gone.unheard, gone.landed,
      gone.forgotten]
  rw [left, Coordinator.placed]
  omega

/-- No deed makes more of a ticket, unless it is asked for anew. -/
theorem Leaves.tickets_le (h : c.Leaves now act c') (one : c.OneFlight) :
    c'.asking t + c'.placed t ≤ c.asking t + c.placed t + act.ticket?.toList.count t := by
  have step {c' : Coordinator} (h : c.Step now act c') :
      c'.asking t + c'.placed t ≤ c.asking t + c.placed t + act.ticket?.toList.count t := by
    have placed := h.placed t
    cases alive : c.alive with
    | true =>
      have asking := h.asking t alive
      omega
    | false =>
      have unheard := ((one.step h).fallen (h.alive.trans alive)).1.unheard
      have none : c'.asking t = 0 := by simp [Coordinator.asking, unheard]
      have still : act.passed = [] := by
        cases h with
        | handle mailbox => rw [(one.fallen alive).1.unheard] at mailbox; cases mailbox
        | _ => rfl
      rw [still, List.count_nil] at placed
      omega
  cases h with
  | whole h => exact step h
  | rest h gone before =>
    have most := step h
    have less := gone.placed_le t before
    omega

end Coordinator

/-- No ticket is in two places, and tickets that were not given out yet are in none. -/
structure Moment.Ticketed (m : Moment) : Prop where
  fresh : ∀ t, m.nextTicket ≤ t → m.form.coordinator.asking t + m.form.coordinator.placed t = 0
  once : ∀ t, m.form.coordinator.asking t + m.form.coordinator.placed t ≤ 1

namespace Moment

variable {a b : Moment} {d : Deed}

theorem perform?_nextTicket (h : a.perform? d = some b) :
    (∃ t, a.act d = .asks t ∧ a.nextTicket ≤ t ∧ b.nextTicket = t + 1) ∨
      ((a.act d).ticket? = none ∧ b.nextTicket = a.nextTicket) := by
  cases d with
  | ask ticket request =>
    simp only [perform?, Option.ite_none_right_eq_some, Option.some.injEq] at h
    obtain ⟨new, rfl⟩ := h
    exact .inl ⟨ticket, rfl, new, rfl⟩
  | handle =>
    obtain ⟨m, rest, mailbox, rfl⟩ := handle_eq_some h
    exact .inr ⟨by simp [act, mailbox, Act.ticket?], rfl⟩
  | pass | change | stop | share =>
    cases h
    exact .inr ⟨rfl, rfl⟩
  | close | straggle =>
    simp only [perform?, Option.ite_none_right_eq_some, Option.some.injEq] at h
    obtain ⟨_, rfl⟩ := h
    exact .inr ⟨rfl, rfl⟩
  | startCall | endCall | finishRun | fireDebounce | fireHide | finishLoad =>
    simp only [perform?, Option.map_eq_some_iff] at h
    obtain ⟨_, _, rfl⟩ := h
    exact .inr ⟨rfl, rfl⟩

theorem Ticketed.step (h : a.perform? d = some b) (one : a.form.coordinator.OneFlight)
    (ticketed : a.Ticketed) : b.Ticketed := by
  have bound t := (perform?_leaves h).tickets_le t one
  rcases perform?_nextTicket h with ⟨t, asks, new, next⟩ | ⟨none, next⟩
  · simp only [asks, Act.ticket?, Option.toList_some] at bound
    have other t' (h : t' ≠ t) : [t].count t' = 0 := List.count_eq_zero_of_not_mem (by simpa using h)
    constructor
    · intro t' later
      have beyond : t < t' := Nat.lt_of_lt_of_le (next ▸ Nat.lt_succ_self t) later
      have fresh := ticketed.fresh t' (Nat.le_trans new (Nat.le_of_lt beyond))
      have most := bound t'
      have zero := other t' (Nat.ne_of_gt beyond)
      omega
    · intro t'
      have most := bound t'
      by_cases same : t' = t
      · have fresh := ticketed.fresh t' (same ▸ new)
        have few : [t].count t' ≤ 1 := List.count_le_length
        omega
      · have once := ticketed.once t'
        have zero := other t' same
        omega
  · simp only [none, Option.toList_none, List.count_nil, Nat.add_zero] at bound
    constructor
    · intro t later
      have fresh := ticketed.fresh t (next ▸ later)
      have most := bound t
      omega
    · exact fun t => Nat.le_trans (bound t) (ticketed.once t)

end Moment

theorem ticketed {c : FormConfig} {now : Nat} {guard : UnloadGuard} {m : Moment} {log : Log}
    (course : Course (.opening c now guard) log m) : m.Ticketed := by
  induction course with
  | here =>
    have bound t := (Moment.opening_leaves c now guard).tickets_le t ⟨fun _ => rfl, by rintro ⟨⟩⟩
    exact ⟨fun t _ => Nat.le_zero.mp (bound t), fun t => Nat.le_succ_of_le (bound t)⟩
  | next before done ih => exact ih.step done (one_flight before)

end LiveForm
