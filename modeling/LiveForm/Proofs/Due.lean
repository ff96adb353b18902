import LiveForm.Proofs.Deferral
import LiveForm.Proofs.AutoSubmit

/-!
# What a form owes

A form that submits on its own owes a submission while it waits, and while one is put off behind the
submission in flight. Only a qualifying edit makes it owe another one.

* `Coordinator.due`: how many automatic attempts may still come without a further edit;
* `Handles.autos`: a message that does not set the wait anew makes no more of them than were due;
* `Moment.perform?_unasked`: only qualifying edits set it anew;
* `Course.autos_within`: so up to the next qualifying edit there are no automatic attempts but those
  that were due.
-/

set_option autoImplicit false

namespace LiveForm

/-- Attempts that the form makes on its own. -/
def Event.isAuto : Event → Bool
  | .began _ trigger => trigger = .auto
  | .halted trigger _ => trigger = .auto
  | _ => false

/-- The attempts so far that the form has made on its own, the last one first. -/
def Form.autos (f : Form) : List Event := f.attempts.filter Event.isAuto

/-- The submission that is put off is one the form makes on its own. -/
def Form.autoPutOff (f : Form) : Bool := f.deferred.any fun d => d.trigger = .auto

/-- An edit that a form which submits on its own has to follow up is handled in a deed. -/
def Qualifies (x : Moment × Deed) : Prop :=
  (x.1.act x.2).isHandling x.1.form.isQualifying = true

instance : DecidablePred Qualifies := fun _ => inferInstanceAs (Decidable (_ = true))

/-! ## What is due -/

namespace Coordinator

variable {now : Nat} {c c' : Coordinator} {m : Message} {act : Act} {trigger : Trigger}
  {waiters : List Ticket}

def autos (c : Coordinator) : List Event := c.attempts.filter Event.isAuto

def autoPutOff (c : Coordinator) : Bool := c.deferred.any fun d => d.trigger = .auto

/-- How many automatic attempts may still come without a further edit: one for the wait that is on,
and one that has been put off. -/
def due (c : Coordinator) : Nat := c.debounce.armed.toNat + c.autoPutOff.toNat

@[simp] theorem request_generation (c : Coordinator) (now : Nat) :
    (c.request now).debounce.generation = c.debounce.generation + 1 := by
  unfold request
  dsimp only
  split <;> simp

@[simp] theorem post_autos (c : Coordinator) (m : Message) : (c.post m).autos = c.autos := by
  simp [autos, attempts]

@[simp] theorem post_autoPutOff (c : Coordinator) (m : Message) :
    (c.post m).autoPutOff = c.autoPutOff := by
  simp [autoPutOff]

theorem answer_autos (c : Coordinator) (tickets : List Ticket) (reply : Reply) :
    (c.answer tickets reply).autos = c.autos := by
  rw [autos, answer_attempts, autos]

theorem request_autoPutOff (c : Coordinator) (now : Nat) :
    (c.request now).autoPutOff = c.autoPutOff := by
  rw [autoPutOff, request_deferred, autoPutOff]

theorem request_autos (c : Coordinator) (now : Nat) : (c.request now).autos = c.autos := by
  rw [autos, request_attempts, autos]

theorem settle_autos (c : Coordinator) (p : Pending) (failure : Option SubmitError) :
    (c.settle p failure).autos = c.autos := by
  rw [autos, settle_attempts, autos]

theorem Precedes.autos (h : c.Precedes c') : c.autos <:+ c'.autos :=
  (h.record.filter Event.isAttempt).filter Event.isAuto

theorem cancel_due (c : Coordinator) : c.cancel.due = c.autoPutOff.toNat := Nat.zero_add _

/-- What is put off together with a submit is manual. -/
theorem defer_manual (c : Coordinator) (tickets : List Ticket) :
    (c.defer .manual tickets).autoPutOff = false := by
  rw [autoPutOff, defer_deferred]
  cases c.deferred <;> rfl

/-- An attempt counts if the form makes it on its own. -/
theorem Attempts.autos (h : c.Attempts trigger waiters c') :
    ∃ e, c'.autos = if trigger = .auto then e :: c.autos else c.autos := by
  cases h with
  | @begins p _ _ cause =>
    refine ⟨.began (c.cycles + 1) trigger, ?_⟩
    rw [Coordinator.autos, begin_attempts, cause]
    cases trigger <;> rfl
  | @halts errors =>
    refine ⟨.halted trigger errors, ?_⟩
    rw [Coordinator.autos, halt_attempts]
    cases trigger <;> rfl

theorem Attempts.due (h : c.Attempts trigger waiters c') : c'.due = c.due := by
  obtain ⟨debounce, -, deferred⟩ := h.waits
  rw [Coordinator.due, Coordinator.due, autoPutOff, autoPutOff, debounce, deferred]

/-- As long as no wait is set anew, no more automatic attempts are made than were due. -/
theorem Handles.autos (h : c.Handles now m c')
    (same : c'.debounce.generation = c.debounce.generation) :
    c'.autos.length + c'.due ≤ c.autos.length + c.due := by
  have cancelled := c.cancel_due
  have all : c.due = c.debounce.armed.toNat + c.autoPutOff.toNat := rfl
  cases h with
  | aside | stale | unknown => exact Nat.le_refl _
  | told =>
    rw [answer_autos]
    exact Nat.le_refl _
  | changed | written => simp [answer] at same
  | @reset t _ =>
    have left : (c.cancel.answer [t] .done).due = c.autoPutOff.toNat := c.cancel_due
    rw [answer_autos]
    exact Nat.add_le_add_left (by omega) _
  | @submitLater t =>
    have left : (c.defer .manual [t]).due = c.debounce.armed.toNat := by
      rw [Coordinator.due, defer_manual]
      rfl
    rw [left]
    exact Nat.add_le_add_left (by omega) _
  | submitNow _ next =>
    obtain ⟨_, made⟩ := next.autos
    have made : c'.autos = c.autos := made
    rw [made, next.due]
    omega
  | elapsedLater armed =>
    have left : (c.cancel.defer .auto []).due ≤ 1 := by
      rw [Coordinator.due]
      exact Nat.le_trans (Nat.le_of_eq (Nat.zero_add _)) (Bool.toNat_le _)
    have made : (c.cancel.defer .auto []).autos.length = c.autos.length := rfl
    rw [armed] at all
    simp only [Bool.toNat_true] at all
    omega
  | elapsedNow armed _ next =>
    obtain ⟨e, made⟩ := next.autos
    have made : c'.autos = e :: c.autos := made
    rw [made, next.due, List.length_cons]
    rw [armed] at all
    simp only [Bool.toNat_true] at all
    omega
  | settledLast _ last =>
    rw [settle_autos]
    exact Nat.le_refl _
  | @settledNext p d failure _ flight waiting next =>
    obtain ⟨e, made⟩ := next.autos
    have told : { c.settle p failure with deferred := none : Coordinator }.autos = c.autos :=
      settle_autos c p failure
    have left : c'.due = c.debounce.armed.toNat := next.due
    have held : c.autoPutOff = decide (d.trigger = .auto) := by
      rw [autoPutOff, waiting]
      rfl
    rw [told] at made
    rw [made, left, all, held]
    cases d.trigger with
    | auto =>
      simp only [ite_true, List.length_cons, decide_true, Bool.toNat_true]
      omega
    | manual => exact Nat.add_le_add_left (Nat.le_add_right _ _) _

/-- Only edits set the wait anew. -/
theorem Handles.generation (h : c.Handles now m c') :
    c'.debounce.generation = c.debounce.generation ∨ (∃ path value, m = .fieldChanged path value) ∨
      ∃ t path value dirty, m = .ask t (.setValue path value dirty) := by
  cases h with
  | changed => exact .inr (.inl ⟨_, _, rfl⟩)
  | written => exact .inr (.inr ⟨_, _, _, _, rfl⟩)
  | submitNow _ next | elapsedNow _ _ next | settledNext _ _ next =>
    refine .inl ?_
    rw [next.waits.1]
    rfl
  | _ => exact .inl rfl

/-- Steps other than the handling of messages leave the wait and what is put off alone, and attempt
nothing. -/
theorem Step.idle (h : c.Step now act c') (idle : ∀ m, act ≠ .handles m) :
    c'.debounce.generation = c.debounce.generation ∧ c'.debounce.armed = c.debounce.armed ∧
      c'.deferred = c.deferred ∧ c'.attempts = c.attempts := by
  cases h with
  | still | call => exact ⟨rfl, rfl, rfl, rfl⟩
  | ask | post | straggle => simp [attempts]
  | fire | finish =>
    rw [post_debounce, post_deferred, attempts, post_record]
    exact ⟨rfl, rfl, rfl, rfl⟩
  | handle => exact absurd rfl (idle _)

/-- As long as no wait is set anew, no more automatic attempts are made than were due. -/
theorem Step.autos (h : c.Step now act c')
    (same : c'.debounce.generation = c.debounce.generation) :
    c'.autos.length + c'.due ≤ c.autos.length + c.due := by
  by_cases handling : ∃ m, act = .handles m
  · obtain ⟨m, rfl⟩ := handling
    cases h with
    | handle _ handled => exact handled.autos same
  · have idle : ∀ m, act ≠ .handles m := fun m eq => handling ⟨m, eq⟩
    obtain ⟨-, armed, deferred, attempts⟩ := h.idle idle
    rw [Coordinator.autos, attempts, due, due, armed, autoPutOff, autoPutOff, deferred]
    exact Nat.le_refl _

end Coordinator

/-! ## Deeds that are no qualifying edits -/

/-- Of the edits only those that qualify set the wait anew. -/
theorem Scene.handle_unasked (s : Scene) (now : Nat) {m : Message}
    (idle : s.form.isQualifying m = false) :
    (s.handle now m).Ends s fun c => s.form.coordinator.Handles now m c ∧
      c.debounce.generation = s.form.debounce.generation := by
  by_cases write : ∃ t path value dirty, m = .ask t (.setValue path value dirty)
  · obtain ⟨t, path, value, dirty, rfl⟩ := write
    have written := answered_ends s (s.handleSetValue_ends now path value dirty) t
    have asked : (dirty.getD s.form.setup.autoSubmit && s.form.store.changes path value) = false :=
      idle
    rw [Bool.and_assoc, asked, Bool.and_false] at written
    exact written.mono fun c eq => eq ▸ ⟨.told rfl, rfl⟩
  · refine (s.handle_ends now m).mono fun c handled => ⟨handled, ?_⟩
    rcases handled.generation with same | ⟨path, value, rfl⟩ | edit
    · exact same
    · cases idle
    · exact absurd edit write

section

variable {a b m : Moment} {d : Deed} {log : Log}

/-- A deed that is no qualifying edit is a step that does not set the wait anew, or as much of one as
was done when the form ended. -/
theorem Moment.perform?_unasked (h : a.perform? d = some b) (idle : ¬ Qualifies (a, d)) :
    ∃ last, a.form.coordinator.Step a.now (a.act d) last ∧
      last.debounce.generation = a.form.debounce.generation ∧
      (b.form.coordinator = last ∨ b.form.alive = false ∧ b.form.coordinator.Precedes last) := by
  by_cases handling : ∃ m, a.act d = .handles m
  · obtain ⟨m, handles⟩ := handling
    obtain ⟨rest, mailbox, done⟩ := perform?_of_handles handles
    obtain rfl := Option.some.inj (h.symm.trans done)
    have quiet : a.form.isQualifying m = false :=
      Bool.eq_false_iff.mpr fun asks => idle (Act.isHandling_iff.mpr ⟨m, handles, asks⟩)
    have ends := (a.scene.update fun f => { f with mailbox := rest }).handle_unasked a.now quiet
    rw [handles]
    cases turn : (a.scene.update fun f => { f with mailbox := rest }).handle a.now m with
    | goesOn s =>
      obtain ⟨handled, same⟩ := ends.goes s turn
      exact ⟨_, .handle mailbox handled, same, .inl rfl⟩
    | falls s =>
      obtain ⟨last, ⟨handled, same⟩, before⟩ := ends.falls s turn
      exact ⟨last, .handle mailbox handled, same, .inr ⟨rfl, s.close_precedes.trans before⟩⟩
  · have other : ∀ m, a.act d ≠ .handles m := fun m eq => handling ⟨m, eq⟩
    cases perform?_leaves h with
    | whole step => exact ⟨_, step, (step.idle other).1, .inl rfl⟩
    | rest step gone before => exact ⟨_, step, (step.idle other).1, .inr ⟨gone.dead, before⟩⟩

theorem Form.coordinator_autos (f : Form) : f.coordinator.autos = f.autos :=
  congrArg (List.filter Event.isAuto) f.coordinator_attempts

/-- A form that ended within a step has attempted no more than the step does. -/
theorem Form.autos_suffix {f : Form} {last : Coordinator}
    (ends : f.coordinator = last ∨ f.alive = false ∧ f.coordinator.Precedes last) :
    f.autos <:+ last.autos := by
  rw [← f.coordinator_autos]
  rcases ends with rfl | ⟨-, before⟩
  · exact List.suffix_rfl
  · exact before.autos

/-- How many automatic attempts a form may still make without a further edit. -/
def Form.due (f : Form) : Nat := if f.alive then f.coordinator.due else 0

theorem Form.due_le (f : Form) : f.due ≤ f.coordinator.due := by
  unfold due
  split
  · exact Nat.le_refl _
  · exact Nat.zero_le _

theorem Form.due_of_dead {f : Form} (dead : f.alive = false) : f.due = 0 := by
  rw [due, dead, if_neg Bool.false_ne_true]

/-- What has been attempted stays so. -/
theorem Course.autos_stay (course : Course a log m) : a.form.autos <:+ m.form.autos := by
  induction course with
  | here => exact List.suffix_rfl
  | next _ done ih =>
    refine ih.trans ?_
    rcases Moment.perform?_attempts done with same | ⟨e, more, -⟩
    · simp only [Form.autos, same, List.suffix_rfl]
    · rw [Form.autos, Form.autos, more]
      exact (List.suffix_cons _ _).filter _

/-- A deed that is no qualifying edit makes no more automatic attempts than were due. -/
theorem Moment.perform?_autos (h : a.perform? d = some b) (idle : ¬ Qualifies (a, d))
    (one : a.form.coordinator.OneFlight) :
    b.form.autos.length + b.form.due ≤ a.form.autos.length + a.form.due := by
  obtain ⟨last, step, same, ends⟩ := perform?_unasked h idle
  have first := a.form.coordinator_autos
  have few : b.form.autos.length ≤ last.autos.length := (Form.autos_suffix ends).length_le
  have left : b.form.due ≤ last.due := by
    rcases ends with rfl | ⟨dead, -⟩
    · exact b.form.due_le
    · exact Form.due_of_dead dead ▸ Nat.zero_le _
  cases living : a.form.alive with
  | true =>
    have made := step.autos same
    have all : a.form.due = a.form.coordinator.due := if_pos living
    rw [first] at made
    omega
  | false =>
    -- A form that has ended hears of no message, and makes no attempt.
    have unheard : ∀ message, a.act d ≠ .handles message := by
      intro message handles
      have alive := alive_of_handles one handles
      rw [living] at alive
      cases alive
    have kept : last.autos = a.form.coordinator.autos :=
      congrArg (List.filter Event.isAuto) (step.idle unheard).2.2.2
    have dead : b.form.alive = false := by
      cases alive : b.form.alive with
      | true => exact absurd (perform?_alive h alive) (by simp [living])
      | false => rfl
    rw [Form.due_of_dead dead, Form.due_of_dead living]
    rw [kept, first] at few
    exact few

/-- Nor does all that happens up to the next qualifying edit. -/
theorem Course.autos (course : Course a log m) (idle : ∀ x ∈ log, ¬ Qualifies x)
    (one : ∀ {log m}, Course a log m → m.form.coordinator.OneFlight) :
    m.form.autos.length + m.form.due ≤ a.form.autos.length + a.form.due := by
  induction course with
  | here => exact Nat.le_refl _
  | next before done ih =>
    obtain ⟨now, later⟩ := List.forall_mem_cons.mp idle
    exact Nat.le_trans (Moment.perform?_autos done now (one before)) (ih later)

/-- Without a further qualifying edit there are no automatic attempts but those that were due. -/
theorem Course.autos_within (course : Course a log m) (idle : ∀ x ∈ log, ¬ Qualifies x)
    (one : ∀ {log m}, Course a log m → m.form.coordinator.OneFlight) :
    (a.form.due = 0 → m.form.autos = a.form.autos) ∧
      (a.form.due ≤ 1 → m.form.autos = a.form.autos ∨ ∃ e, m.form.autos = e :: a.form.autos) := by
  have few := course.autos idle one
  obtain ⟨new, more⟩ := course.autos_stay
  have count := congrArg List.length more
  rw [List.length_append] at count
  constructor
  · intro none
    have empty : new = [] := List.eq_nil_of_length_eq_zero (by omega)
    rw [← more, empty, List.nil_append]
  · intro one
    match new, more, count with
    | [], more, _ => exact .inl more.symm
    | [e], more, _ => exact .inr ⟨e, more.symm⟩
    | _ :: _ :: _, _, count =>
      simp only [List.length_cons] at count
      omega

end

end LiveForm
