import LiveForm.Proofs.Coordinator.Handling
import LiveForm.Proofs.Course

/-!
# What a deed does to the coordinator

`Coordinator.Step` lists all that one deed can do to the coordinator of a form that lives on, and
`Coordinator.Leaves` what is left when the form ends on the way; `perform?_leaves` shows that no
deed does more. Invariants of the coordinator are then proved over these few cases.
-/

set_option autoImplicit false

namespace LiveForm

open Coordinator

/-- One deed at a coordinator. -/
inductive Coordinator.Step (now : Nat) (c : Coordinator) : Act → Coordinator → Prop where
  | still : Step now c .other c
  | ask {t : Ticket} {request : Request} : Step now c (.asks t) (c.post (.ask t request))
  | post {m : Message} (h : m.isAside = true) : Step now c .other (c.post m)
  | straggle {g : Nat}
      (off : g < c.debounce.generation ∨ g = c.debounce.generation ∧ c.debounce.armed = false) :
      Step now c .other (c.post (.debounceElapsed g))
  | fire {t : Timer} (h : c.debounce.timer = some t) :
      Step now c .other ({ c with debounce := { c.debounce with timer := none } }.post
        (.debounceElapsed t.generation))
  | call {runs : List Run} (same : runs.map Run.cycle = c.runs.map Run.cycle) :
      Step now c .other { c with runs }
  | finish {place : Nat} {r : Run} {failure : Option SubmitError} (h : c.runs[place]? = some r) :
      Step now c .other
        ({ c with runs := c.runs.eraseIdx place }.post (.settled r.cycle failure))
  | handle {m : Message} {rest : List Message} {c' : Coordinator} (h : c.mailbox = m :: rest)
      (handled : { c with mailbox := rest }.Handles now m c') : Step now c (.handles m) c'

theorem Coordinator.Attempts.alive {c c' : Coordinator} {trigger : Trigger} {waiters : List Ticket}
    (h : c.Attempts trigger waiters c') : c'.alive = c.alive := by
  cases h <;> rfl

theorem Coordinator.Handles.alive {now : Nat} {c c' : Coordinator} {m : Message}
    (h : c.Handles now m c') : c'.alive = c.alive := by
  cases h with
  | submitNow _ next | elapsedNow _ _ next | settledNext _ _ next => exact next.alive
  | changed | written => exact request_alive c now
  | _ => rfl

namespace Coordinator

variable {now : Nat} {c c' : Coordinator} {m : Message} {act : Act}

theorem Step.alive (h : c.Step now act c') : c'.alive = c.alive := by
  cases h with
  | handle _ handled => exact handled.alive
  | ask | post | straggle | fire | finish => simp
  | _ => rfl

theorem Attempts.setup {trigger : Trigger} {waiters : List Ticket}
    (h : c.Attempts trigger waiters c') : c'.setup = c.setup := by
  cases h <;> rfl

theorem Handles.setup (h : c.Handles now m c') : c'.setup = c.setup := by
  cases h with
  | submitNow _ next | elapsedNow _ _ next | settledNext _ _ next => exact next.setup
  | changed | written => exact request_setup c now
  | _ => rfl

theorem Step.setup (h : c.Step now act c') : c'.setup = c.setup := by
  cases h with
  | handle _ handled => exact handled.setup
  | ask | post | straggle | fire | finish => simp
  | _ => rfl

/-- An attempt leaves the wait, the mailbox and what is put off alone. -/
theorem Attempts.waits {trigger : Trigger} {waiters : List Ticket}
    (h : c.Attempts trigger waiters c') :
    c'.debounce = c.debounce ∧ c'.mailbox = c.mailbox ∧ c'.deferred = c.deferred := by
  cases h <;> exact ⟨rfl, rfl, rfl⟩

theorem Attempts.record {trigger : Trigger} {waiters : List Ticket}
    (h : c.Attempts trigger waiters c') : c.record <:+ c'.record := by
  cases h with
  | begins => exact List.suffix_cons _ _
  | halts => exact (List.suffix_cons _ _).trans (List.suffix_append _ _)

theorem settle_record (c : Coordinator) (p : Pending) (failure : Option SubmitError) :
    c.record <:+ (c.settle p failure).record :=
  (List.suffix_cons _ _).trans (List.suffix_append _ _)

/-- What has been recorded stays. -/
theorem Handles.record (h : c.Handles now m c') : c.record <:+ c'.record := by
  cases h with
  | submitNow _ next | elapsedNow _ _ next => exact next.record
  | settledNext _ _ next => exact (settle_record c _ _).trans next.record
  | settledLast => exact settle_record c _ _
  | told => exact List.suffix_cons _ _
  | changed => exact (Precedes.request c now).record
  | written => exact (Precedes.request c now).record.trans (List.suffix_cons _ _)
  | reset => exact List.suffix_cons _ _
  | _ => exact List.suffix_rfl

theorem Step.record (h : c.Step now act c') : c.record <:+ c'.record := by
  cases h with
  | handle _ handled => exact handled.record
  | ask | post | straggle | fire | finish => simp
  | _ => exact List.suffix_rfl

end Coordinator

/-! ## Ends -/

/-- The form has ended and has dropped what it was to do. -/
structure Coordinator.Ended (c : Coordinator) : Prop where
  dead : c.alive = false
  unheard : c.mailbox = []
  landed : c.pending = none
  forgotten : c.deferred = none

/-- A form that has ended hears of nothing. -/
theorem Coordinator.Ended.step {now : Nat} {c c' : Coordinator} {act : Act}
    (gone : c.Ended) (h : c.Step now act c') : c'.Ended := by
  cases h with
  | still | call => exact ⟨gone.dead, gone.unheard, gone.landed, gone.forgotten⟩
  | ask | post | straggle | fire | finish =>
    rw [post_ended]
    · exact ⟨gone.dead, gone.unheard, gone.landed, gone.forgotten⟩
    · exact gone.dead
  | handle mailbox =>
    rw [gone.unheard] at mailbox
    cases mailbox

/-! ## Attempts -/

/-- A submission begins, or invalid fields stop it. -/
def Event.isAttempt : Event → Bool
  | .began _ _ => true
  | .halted _ _ => true
  | _ => false

/-- The attempts so far, the last one first. -/
def Form.attempts (f : Form) : List Event := f.history.filter Event.isAttempt

namespace Coordinator

variable {now : Nat} {c c' : Coordinator} {m : Message}

def attempts (c : Coordinator) : List Event := c.record.filter Event.isAttempt

theorem answer_attempts (c : Coordinator) (tickets : List Ticket) (reply : Reply) :
    (c.answer tickets reply).attempts = c.attempts := by
  have told : (tickets.map fun t => Event.answered t reply).filter Event.isAttempt = [] := by
    simp [Event.isAttempt]
  simp [answer, attempts, List.filter_reverse, told]

theorem request_attempts (c : Coordinator) (now : Nat) :
    (c.request now).attempts = c.attempts := by
  rw [attempts, request_record, attempts]

theorem settle_attempts (c : Coordinator) (p : Pending) (failure : Option SubmitError) :
    (c.settle p failure).attempts = c.attempts := by
  rw [settle, answer_attempts]
  rfl

theorem begin_attempts (c : Coordinator) (p : Pending) (run : Run) :
    (c.begin p run).attempts = .began (c.cycles + 1) p.trigger :: c.attempts := rfl

theorem halt_attempts (c : Coordinator) (trigger : Trigger) (waiters : List Ticket)
    (errors : FieldErrors) :
    (c.halt trigger waiters errors).attempts = .halted trigger errors :: c.attempts := by
  rw [halt, answer_attempts]
  rfl

theorem Attempts.attempts {trigger : Trigger} {waiters : List Ticket}
    (h : c.Attempts trigger waiters c') : ∃ e, c'.attempts = e :: c.attempts := by
  cases h with
  | begins => exact ⟨_, begin_attempts _ _ _⟩
  | halts => exact ⟨_, halt_attempts _ _ _ _⟩

/-- Messages that never lead to an attempt. -/
theorem Handles.no_attempt (h : c.Handles now m c') (submit : ∀ t, m ≠ .ask t .submit)
    (elapsed : ∀ g, m ≠ .debounceElapsed g) (settled : ∀ k failure, m ≠ .settled k failure) :
    c'.attempts = c.attempts := by
  cases h with
  | aside => rfl
  | told | reset => exact answer_attempts _ _ _
  | changed => exact request_attempts _ _
  | written => rw [answer_attempts, request_attempts]
  | submitLater | submitNow => exact absurd rfl (submit _)
  | stale | elapsedLater | elapsedNow => exact absurd rfl (elapsed _)
  | unknown | settledLast | settledNext => exact absurd rfl (settled _ _)

end Coordinator

theorem Form.coordinator_attempts (f : Form) : f.coordinator.attempts = f.attempts := by
  unfold Coordinator.attempts attempts coordinator
  rw [List.filter_filter]
  apply List.filter_congr
  intro e _
  cases e <;> simp [Event.isAttempt, Event.isRecorded]

/-! ## Deeds -/

theorem Scene.close_ended (s : Scene) : s.close.form.coordinator.Ended := ⟨rfl, rfl, rfl, rfl⟩

/-- What a deed leaves of a coordinator: all of it, or what was there when its form ended. -/
inductive Coordinator.Leaves (now : Nat) (c : Coordinator) (act : Act)
    (c' : Coordinator) : Prop where
  | whole (step : c.Step now act c')
  | rest {last : Coordinator} (step : c.Step now act last) (ended : c'.Ended)
      (before : c'.Precedes last)

theorem Coordinator.Leaves.step {now : Nat} {c c' : Coordinator} {act : Act}
    (h : c.Leaves now act c') (alive : c'.alive = true) : c.Step now act c' := by
  cases h with
  | whole step => exact step
  | rest _ ended => exact absurd alive (by simp [ended.dead])

theorem Scene.close_precedes (s : Scene) : s.close.form.coordinator.Precedes s.form.coordinator := by
  have same := s.releaseToken_coordinator
  constructor
  · exact congrArg Coordinator.record same ▸ List.suffix_rfl
  · exact congrArg Coordinator.runs same ▸ List.prefix_rfl

theorem Form.putCall_cycles (f : Form) (run call : Nat) (c : Call) :
    (f.putCall run call c).runs.map Run.cycle = f.runs.map Run.cycle := by
  unfold putCall
  apply List.ext_getElem?
  intro i
  simp only [List.getElem?_map, List.getElem?_modify]
  cases f.runs[i]? with
  | none => rfl
  | some r =>
    by_cases h : run = i <;> simp [h]

namespace Moment

variable {a b : Moment} {d : Deed}

/-- What it means that the head of the mailbox has been handled. -/
theorem handle_eq_some (h : a.perform? .handle = some b) :
    ∃ m rest, a.form.mailbox = m :: rest ∧
      b = { a with
        scene := ((a.scene.update fun f => { f with mailbox := rest }).handle a.now m).land } := by
  simp only [perform?, Scene.handleNext?, Option.map_eq_some_iff] at h
  obtain ⟨s, next, rfl⟩ := h
  split at next
  · cases next
  · rename_i m rest mailbox
    cases next
    exact ⟨m, rest, mailbox, rfl⟩

/-- A message that is handled is the head of the mailbox, and something comes of it. -/
theorem perform?_of_handles {m : Message} (h : a.act d = .handles m) :
    ∃ rest, a.form.mailbox = m :: rest ∧
      a.perform? d = some { a with
        scene := ((a.scene.update fun f => { f with mailbox := rest }).handle a.now m).land } := by
  cases d with
  | handle =>
    simp only [act] at h
    split at h
    · cases h
    · rename_i rest mailbox
      cases h
      exact ⟨rest, mailbox, by rw [perform?, Scene.handleNext?, mailbox]; rfl⟩
  | _ => cases h

theorem perform?_leaves (h : a.perform? d = some b) :
    a.form.coordinator.Leaves a.now (a.act d) b.form.coordinator := by
  have put (s : Scene) (m : Message) :
      (s.update fun f => f.post m).form.coordinator = s.form.coordinator.post m :=
    Scene.post_coordinator s.form m
  cases d with
  | handle =>
    obtain ⟨m, rest, mailbox, rfl⟩ := handle_eq_some h
    have head : a.act .handle = .handles m := by simp [act, mailbox]
    rw [head]
    have ends := Scene.handle_ends (a.scene.update fun f => { f with mailbox := rest }) a.now m
    cases turn : (a.scene.update fun f => { f with mailbox := rest }).handle a.now m with
    | goesOn s => exact .whole (.handle mailbox (ends.goes s turn))
    | falls s =>
      obtain ⟨last, handled, before⟩ := ends.falls s turn
      exact .rest (.handle mailbox handled) s.close_ended (s.close_precedes.trans before)
  | close =>
    simp only [perform?, Option.ite_none_right_eq_some, Option.some.injEq] at h
    obtain ⟨_, rfl⟩ := h
    exact .rest .still a.scene.close_ended a.scene.close_precedes
  | ask ticket request =>
    simp only [perform?, Option.ite_none_right_eq_some, Option.some.injEq] at h
    obtain ⟨_, rfl⟩ := h
    exact put a.scene _ ▸ .whole .ask
  | change path value =>
    cases h
    exact put a.scene _ ▸ .whole (.post rfl)
  | straggle notice =>
    simp only [perform?, Option.ite_none_right_eq_some, Option.some.injEq] at h
    obtain ⟨off, rfl⟩ := h
    rw [put]
    cases notice with
    | debounceElapsed g => exact .whole (.straggle (by simpa [Form.hasCalledOff, Form.coordinator] using off))
    | hideLoader => exact .whole (.post rfl)
    | _ => simp [Form.hasCalledOff] at off
  | pass | stop | share =>
    cases h
    exact .whole .still
  | startCall run call =>
    simp only [perform?, Scene.startCall?, Option.map_eq_some_iff] at h
    obtain ⟨_, ⟨c, _, rfl⟩, rfl⟩ := h
    exact .whole (.call (Form.putCall_cycles a.form run call _))
  | endCall run call =>
    simp only [perform?, Scene.endCallAt?, Option.map_eq_some_iff] at h
    obtain ⟨_, ⟨c, _, rfl⟩, rfl⟩ := h
    exact .whole (.call (Form.putCall_cycles a.form run call _))
  | finishRun run =>
    simp only [perform?, Scene.finishRunAt?, Option.map_eq_some_iff, Option.filter_eq_some_iff] at h
    obtain ⟨_, ⟨r, ⟨found, _⟩, rfl⟩, rfl⟩ := h
    exact put (a.scene.update fun f => { f with runs := f.runs.eraseIdx run }) _ ▸
      .whole (.finish found)
  | fireDebounce =>
    simp only [perform?, Scene.fireDebounce?, Option.map_eq_some_iff,
      Option.filter_eq_some_iff] at h
    obtain ⟨_, ⟨t, ⟨timer, _⟩, rfl⟩, rfl⟩ := h
    exact put (a.scene.update fun f => { f with debounce := { f.debounce with timer := none } }) _ ▸
      .whole (.fire timer)
  | fireHide =>
    simp only [perform?, Scene.fireHide?, Option.map_eq_some_iff, Option.filter_eq_some_iff] at h
    obtain ⟨_, ⟨t, ⟨timer, _⟩, rfl⟩, rfl⟩ := h
    exact put (a.scene.update fun f => { f with loader := { f.loader with hideTimer := none } }) _ ▸
      .whole (.post rfl)
  | finishLoad =>
    simp only [perform?, Scene.finishLoad?, Option.map_eq_some_iff, Option.filter_eq_some_iff] at h
    obtain ⟨_, ⟨l, ⟨load, _⟩, rfl⟩, rfl⟩ := h
    cases l.outcome with
    | panics => exact .whole .still
    | values | fails =>
      exact put (a.scene.update fun f => { f with load := none }) _ ▸ .whole (.post rfl)

/-- A form that lives after a turn has not fallen. -/
theorem land_alive {t : Turn} (h : t.land.form.alive = true) : t = .goesOn t.land := by
  cases t with
  | goesOn s => rfl
  | falls s => cases h

/-- A message handled by a form that lives on has been handled to the end. -/
theorem handles_goesOn (h : a.perform? d = some b) {m : Message} (handles : a.act d = .handles m)
    (alive : b.form.alive = true) :
    ∃ rest, a.form.mailbox = m :: rest ∧
      (a.scene.update fun f => { f with mailbox := rest }).handle a.now m = .goesOn b.scene := by
  obtain ⟨rest, mailbox, done⟩ := perform?_of_handles handles
  obtain rfl := Option.some.inj (h.symm.trans done)
  exact ⟨rest, mailbox, land_alive alive⟩

/-- A form that has ended stays so. -/
theorem perform?_alive (h : a.perform? d = some b) (alive : b.form.alive = true) :
    a.form.alive = true :=
  ((perform?_leaves h).step alive).alive.symm.trans alive

/-- A new form may fall when it shows itself first. -/
theorem opening_leaves (c : FormConfig) (now : Nat) (guard : UnloadGuard) :
    (Form.make c now).coordinator.Leaves now .other (Moment.opening c now guard).form.coordinator := by
  have ends := Scene.publishCurrent_ends ⟨Form.make c now, guard⟩
  cases turn : Scene.publishCurrent ⟨Form.make c now, guard⟩ with
  | goesOn s =>
    have shown : (Moment.opening c now guard).scene = s := by simp [opening, turn, Turn.land]
    rw [form, shown, ends.goes s turn]
    exact .whole .still
  | falls s =>
    have shown : (Moment.opening c now guard).scene = s.close := by
      simp [opening, turn, Turn.land]
    obtain ⟨last, rfl, before⟩ := ends.falls s turn
    rw [form, shown]
    exact .rest .still s.close_ended (s.close_precedes.trans before)

end Moment

namespace Course

variable {c : FormConfig} {now : Nat} {guard : UnloadGuard} {m : Moment} {log : Log}
  {P : Coordinator → Prop}

/-- What holds at first, and what steps and ends keep, holds at every moment. -/
theorem keeps_coordinator (course : Course (.opening c now guard) log m)
    (step : ∀ {now : Nat} {c c' : Coordinator} {act : Act},
      c.Step now act c' → P c → P c')
    (ended : ∀ {c c' : Coordinator}, c'.Ended → c'.Precedes c → P c → P c')
    (first : P (Form.make c now).coordinator) : P m.form.coordinator := by
  have leaves {now : Nat} {c c' : Coordinator} {act : Act}
      (h : c.Leaves now act c') (before : P c) : P c' := by
    cases h with
    | whole h => exact step h before
    | rest h gone part => exact ended gone part (step h before)
  exact course.keeps (P := fun m => P m.form.coordinator)
    (fun done => leaves (Moment.perform?_leaves done))
    (leaves (Moment.opening_leaves c now guard) first)

theorem alive_before {a : Moment} (course : Course a log m) (alive : m.form.alive = true) :
    a.form.alive = true := by
  induction course with
  | here => exact alive
  | next _ done ih => exact ih (Moment.perform?_alive done alive)

/-- As long as a form lives, what has been recorded stays. -/
theorem record {a : Moment} (course : Course a log m) (alive : m.form.alive = true) :
    a.form.coordinator.record <:+ m.form.coordinator.record := by
  induction course with
  | here => exact List.suffix_rfl
  | next _ done ih =>
    exact (ih (Moment.perform?_alive done alive)).trans
      ((Moment.perform?_leaves done).step alive).record

/-- What holds at first, and what the steps of a living form keep, holds as long as it lives. -/
theorem keeps_alive (course : Course (.opening c now guard) log m)
    (step : ∀ {now : Nat} {c c' : Coordinator} {act : Act},
      c.alive = true → c.Step now act c' → P c → P c')
    (first : P (Form.make c now).coordinator) (alive : m.form.alive = true) :
    P m.form.coordinator :=
  course.keeps_coordinator (P := fun c => c.alive = true → P c)
    (fun h before alive => step (h.alive.symm.trans alive) h (before (h.alive.symm.trans alive)))
    (fun gone _ _ alive => absurd alive (by simp [gone.dead])) (fun _ => first) alive

/-- A form keeps to what it was made with. -/
theorem setup (course : Course (.opening c now guard) log m) (alive : m.form.alive = true) :
    m.form.setup = (Form.make c now).setup :=
  course.keeps_alive (P := fun d => d.setup = (Form.make c now).setup)
    (fun _ step same => step.setup.trans same) rfl alive

end Course

end LiveForm
