import LiveForm.Proofs.SingleFlight

/-!
# No edit is forgotten

A form that submits on its own does so some time after an edit.

* `Debounce.Timed`: while a wait is on, its end is heard of once, and ends of other waits are old;
* `Coordinator.Covers`: the form is waiting, or a submission is put off behind the one in flight;
* `Course.covers`: an edit is covered until a submission is attempted or the form is reset;
* `no_edit_forgotten`: so when nothing is left to happen, one of the two has come about.
-/

set_option autoImplicit false

namespace LiveForm

/-- The notice that the wait of this number is over. -/
def Message.isNotice (generation : Nat) : Message → Bool
  | .debounceElapsed g => g == generation
  | _ => false

namespace Debounce

/-- How many timers and messages are still to tell of the end of the current wait. -/
def outstanding (d : Debounce) (mailbox : List Message) : Nat :=
  (d.timer.filter fun t => t.generation == d.generation).toList.length +
    mailbox.countP (Message.isNotice d.generation)

/-- Timers are those of the current wait, whose end is told of once. -/
structure Timed (d : Debounce) (mailbox : List Message) : Prop where
  known : ∀ g, .debounceElapsed g ∈ mailbox → g ≤ d.generation
  set : ∀ t, d.timer = some t → d.armed = true ∧ t.generation = d.generation
  one : d.armed = true → d.outstanding mailbox = 1

/-- No wait is on. -/
def cancelled (d : Debounce) : Debounce := { d with armed := false, timer := none }

namespace Timed

variable {d : Debounce} {m : Message} {mailbox rest : List Message}

theorem known_tail (h : d.Timed (m :: rest)) (g : Nat) (among : .debounceElapsed g ∈ rest) :
    g ≤ d.generation :=
  h.known g (List.mem_cons_of_mem _ among)

/-- The message handled has not ended the current wait. -/
theorem tail (h : d.Timed (m :: rest))
    (other : ¬(m.isNotice d.generation = true ∧ d.armed = true)) : d.Timed rest where
  known := h.known_tail
  set := h.set
  one armed := by
    have before := h.one armed
    have quiet : m.isNotice d.generation = false := by
      cases notice : m.isNotice d.generation with
      | false => rfl
      | true => exact absurd ⟨notice, armed⟩ other
    simpa [outstanding, List.countP_cons, quiet] using before

theorem cancelled (known : ∀ g, .debounceElapsed g ∈ mailbox → g ≤ d.generation) :
    d.cancelled.Timed mailbox where
  known := known
  set _ := by rintro ⟨⟩
  one := by rintro ⟨⟩

/-- Notices that do not count: they are of other waits, or no wait is on. -/
theorem append (h : d.Timed mailbox) (old : ∀ g, m = .debounceElapsed g → g ≤ d.generation)
    (other : ¬(m.isNotice d.generation = true ∧ d.armed = true)) : d.Timed (mailbox ++ [m]) where
  known g among := by
    rcases List.mem_append.mp among with before | now
    · exact h.known g before
    · exact old g (List.mem_singleton.mp now).symm
  set := h.set
  one armed := by
    have before := h.one armed
    have quiet : m.isNotice d.generation = false := by
      cases notice : m.isNotice d.generation with
      | false => rfl
      | true => exact absurd ⟨notice, armed⟩ other
    simpa [outstanding, List.countP_append, quiet] using before

/-- No notice of a wait that is about to begin is around. -/
theorem none_new (known : ∀ g, .debounceElapsed g ∈ mailbox → g ≤ d.generation) :
    mailbox.countP (Message.isNotice (d.generation + 1)) = 0 := by
  rw [List.countP_eq_zero]
  intro m among notice
  cases m with
  | debounceElapsed g =>
    have old := known g among
    have new : g = d.generation + 1 := by simpa [Message.isNotice] using notice
    omega
  | _ => cases notice

/-- A new wait that is timed. -/
theorem timer (known : ∀ g, .debounceElapsed g ∈ mailbox → g ≤ d.generation) (due : Nat) :
    (⟨d.generation + 1, true, some ⟨due, d.generation + 1⟩⟩ : Debounce).Timed mailbox where
  known g among := Nat.le_succ_of_le (known g among)
  set t eq := by
    cases eq
    exact ⟨rfl, rfl⟩
  one _ := by simp [outstanding, none_new known]

/-- A new wait that is over at once. -/
theorem notice (known : ∀ g, .debounceElapsed g ∈ mailbox → g ≤ d.generation) :
    (⟨d.generation + 1, true, none⟩ : Debounce).Timed
      (mailbox ++ [.debounceElapsed (d.generation + 1)]) where
  known g among := by
    rcases List.mem_append.mp among with before | now
    · exact Nat.le_succ_of_le (known g before)
    · cases List.mem_singleton.mp now
      exact Nat.le_refl _
  set _ := by rintro ⟨⟩
  one _ := by simp [outstanding, none_new known, Message.isNotice]

/-- The timer puts its notice into the mailbox. -/
theorem fire (h : d.Timed mailbox) {t : Timer} (timer : d.timer = some t) :
    Debounce.Timed { d with timer := none } (mailbox ++ [.debounceElapsed t.generation]) where
  known g among := by
    rcases List.mem_append.mp among with before | now
    · exact h.known g before
    · cases List.mem_singleton.mp now
      exact Nat.le_of_eq (h.set t timer).2
  set _ := by rintro ⟨⟩
  one armed := by
    have before := h.one armed
    have current := (h.set t timer).2
    have none : mailbox.countP (Message.isNotice d.generation) = 0 := by
      simpa [outstanding, timer, current, Option.filter] using before
    simp [outstanding, Message.isNotice, current, none]

end Timed

end Debounce

/-! ## What a step does to the wait -/

namespace Coordinator

variable {now : Nat} {c c' : Coordinator} {m : Message} {act : Act}

def Timed (c : Coordinator) : Prop := c.debounce.Timed c.mailbox

/-- Handling a message leaves the wait alone, calls it off or sets it anew. The end of the current
wait calls it off. -/
theorem Handles.waits (h : c.Handles now m c') :
    (c'.debounce = c.debounce ∧ c'.mailbox = c.mailbox ∧
      ¬(m.isNotice c.debounce.generation = true ∧ c.debounce.armed = true)) ∨
    (c'.debounce = c.debounce.cancelled ∧ c'.mailbox = c.mailbox) ∨
    (c'.debounce = (c.request now).debounce ∧ c'.mailbox = (c.request now).mailbox) := by
  cases h with
  | aside quiet =>
    refine .inl ⟨rfl, rfl, ?_⟩
    rintro ⟨notice, _⟩
    cases m with
    | debounceElapsed => cases quiet
    | _ => cases notice
  | changed | written => exact .inr (.inr ⟨rfl, rfl⟩)
  | reset | elapsedLater => exact .inr (.inl ⟨rfl, rfl⟩)
  | told | submitLater | unknown | settledLast => exact .inl ⟨rfl, rfl, by rintro ⟨⟨⟩, _⟩⟩
  | submitNow _ next | elapsedNow _ _ next =>
    obtain ⟨debounce, mailbox, _⟩ := next.waits
    exact .inr (.inl ⟨debounce, mailbox⟩)
  | stale old =>
    refine .inl ⟨rfl, rfl, ?_⟩
    rintro ⟨notice, armed⟩
    exact old ⟨by simpa [Message.isNotice] using notice, armed⟩
  | settledNext _ _ next =>
    obtain ⟨debounce, mailbox, _⟩ := next.waits
    exact .inl ⟨debounce, mailbox, by rintro ⟨⟨⟩, _⟩⟩

/-- The wait that an edit asks for. -/
theorem request_timed (alive : c.alive = true)
    (known : ∀ g, .debounceElapsed g ∈ c.mailbox → g ≤ c.debounce.generation) :
    (c.request now).debounce.Timed (c.request now).mailbox := by
  unfold request post
  dsimp only
  split
  · simp only [alive, ite_true]
    exact .notice known
  · exact .timer known _

theorem Timed.step (h : c.Step now act c') (alive : c.alive = true) (timed : c.Timed) : c'.Timed := by
  cases h with
  | still | call => exact timed
  | ask =>
    rw [Timed, post_debounce, post_mailbox alive]
    exact timed.append (by rintro _ ⟨⟩) (by rintro ⟨⟨⟩, _⟩)
  | post aside =>
    rename_i m
    rw [Timed, post_debounce, post_mailbox alive]
    cases m with
    | debounceElapsed => cases aside
    | _ => exact timed.append (by rintro _ ⟨⟩) (by rintro ⟨⟨⟩, _⟩)
  | straggle off =>
    rename_i g
    rw [Timed, post_debounce, post_mailbox alive]
    refine timed.append ?_ ?_
    · intro g' eq
      cases eq
      omega
    · rintro ⟨notice, armed⟩
      have same : g = c.debounce.generation := by simpa [Message.isNotice] using notice
      rcases off with old | ⟨_, unarmed⟩
      · omega
      · simp [armed] at unarmed
  | fire timer =>
    rw [Timed, post_debounce, post_mailbox]
    · exact timed.fire timer
    · exact alive
  | finish =>
    rw [Timed, post_debounce, post_mailbox]
    · exact timed.append (by rintro _ ⟨⟩) (by rintro ⟨⟨⟩, _⟩)
    · exact alive
  | handle mailbox handled =>
    rename_i m rest
    have before : c.debounce.Timed (m :: rest) := mailbox ▸ timed
    rw [Timed]
    rcases handled.waits with ⟨debounce, mailbox, other⟩ | ⟨debounce, mailbox⟩ | ⟨debounce, mailbox⟩
    · rw [debounce, mailbox]
      exact before.tail other
    · rw [debounce, mailbox]
      exact .cancelled before.known_tail
    · rw [debounce, mailbox]
      exact request_timed alive before.known_tail

/-! ## What an edit waits for -/

theorem attempts_mono (h : c.record <:+ c'.record) : c.attempts.length ≤ c'.attempts.length :=
  (h.filter Event.isAttempt).length_le

theorem Attempts.more {trigger : Trigger} {waiters : List Ticket}
    (h : c.Attempts trigger waiters c') : c.attempts.length < c'.attempts.length := by
  obtain ⟨e, more⟩ := h.attempts
  rw [more]
  exact Nat.lt_succ_self _

/-- A submission is put off behind the one in flight, or the form waits to submit. -/
def Covers (c : Coordinator) : Prop :=
  (c.deferred.isSome = true ∧ c.pending.isSome = true) ∨ c.debounce.armed = true

/-- What covers an edit goes on to, unless a submission is attempted or the form is reset. -/
theorem Covers.step (h : c.Step now act c') (covers : c.Covers) :
    c'.Covers ∨ c.attempts.length < c'.attempts.length ∨
      ∃ t values, act = .handles (.ask t (.reset values)) := by
  cases h with
  | still | call => exact .inl covers
  | ask | post | straggle | finish => exact .inl (by simpa [Covers] using covers)
  | fire => exact .inl (by simpa [Covers] using covers)
  | handle mailbox handled =>
    cases handled with
    | aside | told | stale | unknown => exact .inl covers
    | changed | written => exact .inl (.inr (request_armed ..))
    | reset => exact .inr (.inr ⟨_, _, rfl⟩)
    | submitLater busy | elapsedLater _ busy => exact .inl (.inl ⟨defer_isSome .., busy⟩)
    | submitNow _ next | elapsedNow _ _ next => exact .inr (.inl next.more)
    | settledLast _ last =>
      refine .inl (.inr ?_)
      have last : c.deferred = none := last
      rcases covers with ⟨waiting, _⟩ | armed
      · simp [last] at waiting
      · exact armed
    | settledNext _ _ next =>
      exact .inr (.inl (Nat.lt_of_le_of_lt (attempts_mono (settle_record c _ _)) next.more))

end Coordinator

/-! ## Along a course -/

namespace Form

/-- How many timers and messages are still to tell of the end of the current wait. -/
def outstanding (f : Form) : Nat := f.debounce.outstanding f.mailbox

/-- The edits after which a form that submits on its own is to do so: changes in fields, and writes
that count as edits and change something. -/
def isQualifying (f : Form) : Message → Bool
  | .fieldChanged _ _ => true
  | .ask _ (.setValue path value dirty) =>
    dirty.getD f.setup.autoSubmit && f.store.changes path value
  | _ => false

end Form

/-- The form is reset in a deed. -/
def Resets (x : Moment × Deed) : Prop :=
  ∃ t values, x.1.act x.2 = .handles (.ask t (.reset values))

/-- After a qualifying edit the form waits. -/
theorem Scene.handle_qualifying {s s' : Scene} {now : Nat} {edit : Message}
    (qualifying : s.form.isQualifying edit = true) (auto : s.form.setup.autoSubmit = true)
    (turn : s.handle now edit = .goesOn s') : s'.form.coordinator.debounce.armed = true := by
  cases edit with
  | fieldChanged path value =>
    have waits := (s.handleFieldChanged_ends now path value).goes s' turn
    rw [waits, if_pos auto]
    exact Coordinator.request_armed _ _
  | ask t request =>
    cases request with
    | setValue path value dirty =>
      have waits := (answered_ends s (s.handleSetValue_ends now path value dirty) t).goes s' turn
      have asked : (dirty.getD s.form.setup.autoSubmit && s.form.store.changes path value) = true :=
        qualifying
      rw [waits, if_pos (by rw [Bool.and_assoc, asked, auto, Bool.and_self])]
      exact Coordinator.request_armed _ _
    | _ => cases qualifying
  | _ => cases qualifying

section

variable {a m : Moment} {log : Log}

/-- What covers an edit goes on to, unless a submission is attempted or the form is reset. -/
theorem Course.covers (course : Course a log m) (alive : m.form.alive = true)
    (covers : a.form.coordinator.Covers) :
    m.form.coordinator.Covers ∨ a.form.coordinator.attempts.length < m.form.coordinator.attempts.length ∨
      ∃ x ∈ log, Resets x := by
  induction course with
  | here => exact .inl covers
  | next before done ih =>
    have step := (Moment.perform?_leaves done).step alive
    have living := Moment.perform?_alive done alive
    rcases ih living with covers | attempted | ⟨x, among, reset⟩
    · rcases covers.step step with covers | attempted | reset
      · exact .inl covers
      · have earlier := Coordinator.attempts_mono (before.record living)
        exact .inr (.inl (Nat.lt_of_le_of_lt earlier attempted))
      · exact .inr (.inr ⟨_, List.mem_cons_self, reset⟩)
    · have later := Coordinator.attempts_mono step.record
      exact .inr (.inl (Nat.lt_of_lt_of_le attempted later))
    · exact .inr (.inr ⟨x, List.mem_cons_of_mem _ among, reset⟩)

end

/-! ## The main result -/

/-- After an edit a form that submits on its own has a submission put off behind the one in flight,
or it waits, and one timer or message is to tell of the end of the wait; unless meanwhile a
submission has been attempted or the form has been reset. Once no message, run or timer is left, one
of the two has come about. -/
theorem no_edit_forgotten {c : FormConfig} {now : Nat} {guard : UnloadGuard} {n m : Moment} {d : Deed}
    {earlier later : Log} {edit : Message}
    (course : Course (.opening c now guard) (later ++ (n, d) :: earlier) m)
    (auto : c.autoSubmit.enable = true) (alive : m.form.alive = true)
    (handles : n.act d = .handles edit) (qualifying : n.form.isQualifying edit = true) :
    (m.form.attempts = n.form.attempts → (∀ x ∈ later, ¬Resets x) →
      (m.form.deferred.isSome = true ∧ m.form.pending.isSome = true) ∨
      (m.form.debounce.armed = true ∧ m.form.outstanding = 1)) ∧
    (m.form.mailbox = [] → m.form.runs = [] → m.form.debounce.timer = none →
      n.form.attempts.length < m.form.attempts.length ∨ ∃ x ∈ later, Resets x) := by
  obtain ⟨b, before, done, after⟩ := course.split
  have living := after.alive_before alive
  have setup : n.form.coordinator.setup = (Form.make c now).setup :=
    before.keeps_alive (P := fun d => d.setup = (Form.make c now).setup)
      (fun _ step same => step.setup.trans same) rfl (Moment.perform?_alive done living)
  obtain ⟨rest, _, turn⟩ := Moment.handles_goesOn done handles living
  have covered : b.form.coordinator.Covers :=
    .inr (Scene.handle_qualifying (s := n.scene.update fun f => { f with mailbox := rest })
      qualifying ((congrArg FormSetup.autoSubmit setup).trans auto) turn)
  have timed : m.form.debounce.Timed m.form.mailbox :=
    course.keeps_alive (P := Coordinator.Timed) (fun living step timed => timed.step step living)
      ⟨by rintro _ ⟨⟩, by rintro _ ⟨⟩, by rintro ⟨⟩⟩ alive
  have first := Coordinator.attempts_mono ((Moment.perform?_leaves done).step living).record
  have since := after.covers alive covered
  simp only [Form.coordinator_attempts] at first since
  have pending : m.form.coordinator.pending.isSome = m.form.pending.isSome := by
    simp [Form.coordinator]
  have covers : m.form.coordinator.Covers →
      (m.form.deferred.isSome = true ∧ m.form.pending.isSome = true) ∨
      (m.form.debounce.armed = true ∧ m.form.outstanding = 1) := by
    rintro (⟨waiting, busy⟩ | armed)
    · exact .inl ⟨waiting, pending ▸ busy⟩
    · exact .inr ⟨armed, timed.one armed⟩
  constructor
  · intro same never
    rcases since with covered | attempted | ⟨x, among, reset⟩
    · exact covers covered
    · rw [same] at attempted
      omega
    · exact absurd reset (never x among)
  · intro mailbox runs timer
    rcases since with covered | attempted | reset
    · -- Both ways to be covered need something that is still to come.
      rcases covers covered with ⟨_, busy⟩ | ⟨_, one⟩
      · simp [nothing_pending course alive mailbox runs] at busy
      · simp [Form.outstanding, Debounce.outstanding, mailbox, timer] at one
    · exact .inl (Nat.lt_of_le_of_lt first attempted)
    · exact .inr reset

/-- An edit that is still to be submitted, and the same when all has come to rest. -/
theorem no_edit_forgotten_change :
    (∃ log m, Course (.opening (.sample ⟨true, some 50⟩ .emptyObject) 0 .new) log m ∧
      m.form.debounce.armed = true ∧ m.form.outstanding = 1) ∧
    (∃ log m, Course (.opening (.sample ⟨true, none⟩ .emptyObject) 0 .new) log m ∧
      m.form.runs = [] ∧ m.form.attempts ≠ []) := by
  constructor
  · obtain ⟨log, m, course, -, passed⟩ := Moment.course_of_test
      (.opening (.sample ⟨true, some 50⟩ .emptyObject) 0 .new)
      [.change ⟨["name"]⟩ (.str "Ada"), .handle]
      (fun log m => m.form.alive && m.form.pending.isNone &&
        log[0]?.any fun x => m.form.attempts.isEmpty && x.1.form.attempts.isEmpty &&
          (x.1.act x.2).isHandling x.1.form.isQualifying)
      (by decide +kernel)
    simp only [Bool.and_eq_true, Option.any_eq_true, List.isEmpty_iff, Option.isNone_iff_eq_none,
      Act.isHandling_iff] at passed
    obtain ⟨⟨alive, free⟩, x, place, ⟨none, before⟩, edit, handles, qualifying⟩ := passed
    rw [Log.around place] at course
    refine ⟨_, m, course, ?_⟩
    rcases (no_edit_forgotten course rfl alive handles qualifying).1 (none.trans before.symm)
      (by simp) with
      ⟨_, busy⟩ | waits
    · simp [free] at busy
    · exact waits
  · obtain ⟨log, m, course, -, passed⟩ := Moment.course_of_test
      (.opening (.sample ⟨true, none⟩ .emptyObject) 0 .new)
      [.change ⟨["name"]⟩ (.str "Ada"), .handle, .handle, .startCall 0 0, .pass 5,
        .endCall 0 0, .finishRun 0, .handle]
      (fun log m => m.form.alive && m.form.mailbox.isEmpty && m.form.runs.isEmpty &&
        m.form.debounce.timer.isNone &&
        (log.take 6).all (fun x => !(x.1.act x.2).isHandling fun m => m.ticket?.isSome) &&
        log[6]?.any fun x => (x.1.act x.2).isHandling x.1.form.isQualifying)
      (by decide +kernel)
    simp only [Bool.and_eq_true, Option.any_eq_true, List.isEmpty_iff, Option.isNone_iff_eq_none,
      List.all_eq_true, Act.isHandling_iff] at passed
    obtain ⟨⟨⟨⟨⟨alive, mailbox⟩, runs⟩, timer⟩, unasked⟩, x, place, edit, handles, qualifying⟩ := passed
    rw [Log.around place] at course
    refine ⟨_, m, course, runs, ?_⟩
    rcases (no_edit_forgotten course rfl alive handles qualifying).2 mailbox runs timer with
      attempted | ⟨y, among, t, values, reset⟩
    · exact List.ne_nil_of_length_pos (Nat.lt_of_le_of_lt (Nat.zero_le _) attempted)
    · exact absurd (unasked y among) (by simp [reset, Act.isHandling, Message.ticket?])

end LiveForm
