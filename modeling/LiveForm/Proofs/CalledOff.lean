import LiveForm.Proofs.Due

/-!
# Resets call off the wait

* `Coordinator.CalledOff`: no wait is on, and what is put off is put off behind a given flight;
* `Course.calledOff`: so it stays up to the next qualifying edit;
* `reset_calls_off`: after a reset the form makes no attempt on its own, but for the one that had
  been put off.
-/

set_option autoImplicit false

namespace LiveForm

def Message.isReset : Message → Bool
  | .ask _ (.reset _) => true
  | _ => false

theorem resets_iff {x : Moment × Deed} :
    (x.1.act x.2).isHandling Message.isReset = true ↔ Resets x := by
  rw [Act.isHandling_iff]
  constructor
  · rintro ⟨m, handles, reset⟩
    unfold Message.isReset at reset
    split at reset
    · exact ⟨_, _, handles⟩
    · cases reset
  · rintro ⟨t, values, handles⟩
    exact ⟨_, handles, rfl⟩

instance : DecidablePred Resets := fun _ => decidable_of_iff _ resets_iff

namespace Coordinator

variable {now : Nat} {c c' : Coordinator} {m : Message} {act : Act}

/-- No wait is on, and an automatic submission is put off behind one flight at most. -/
structure CalledOff (flight : Option Nat) (c : Coordinator) : Prop where
  unarmed : c.debounce.armed = false
  behind : c.autoPutOff = true → c.pending.map Pending.cycle = flight

/-- Then the only automatic attempt that can be made is the one put off, when that flight settles. -/
theorem Handles.calledOff {flight : Option Nat} (h : c.Handles now m c')
    (same : c'.debounce.generation = c.debounce.generation) (orderly : c.Orderly)
    (off : c.CalledOff flight) :
    c'.CalledOff flight ∧ (c'.autos ≠ c.autos →
      ∃ p failure, c.pending = some p ∧ flight = some p.cycle ∧ m = .settled p.cycle failure) := by
  cases h with
  | aside | told | stale | unknown =>
    exact ⟨⟨off.unarmed, off.behind⟩, fun more => absurd rfl more⟩
  | changed | written => simp [answer] at same
  | reset => exact ⟨⟨rfl, off.behind⟩, fun more => absurd (answer_autos c.cancel _ _) more⟩
  | submitLater =>
    refine ⟨⟨off.unarmed, fun held => ?_⟩, fun more => absurd rfl more⟩
    rw [defer_manual] at held
    cases held
  | submitNow free next =>
    obtain ⟨debounce, -, deferred⟩ := next.waits
    obtain ⟨_, made⟩ := next.autos
    refine ⟨⟨by rw [debounce]; rfl, fun held => ?_⟩, fun more => absurd made more⟩
    rw [autoPutOff, deferred, show c.cancel.deferred = none from orderly.clear free] at held
    cases held
  | elapsedLater armed | elapsedNow armed =>
    rw [off.unarmed] at armed
    cases armed
  | settledLast _ last =>
    refine ⟨⟨off.unarmed, fun held => ?_⟩, fun more => absurd (settle_autos c _ _) more⟩
    rw [autoPutOff, show (c.settle _ _).deferred = none from last] at held
    cases held
  | @settledNext p d failure _ busy waiting next =>
    obtain ⟨debounce, -, deferred⟩ := next.waits
    obtain ⟨e, made⟩ := next.autos
    refine ⟨⟨debounce ▸ off.unarmed, fun held => ?_⟩, fun more => ⟨p, failure, busy, ?_, rfl⟩⟩
    · rw [autoPutOff, deferred] at held
      cases held
    · cases cause : d.trigger with
      | manual =>
        rw [cause] at made
        exact absurd (made.trans (settle_autos c p failure)) more
      | auto =>
        have held : c.autoPutOff = true := by
          rw [autoPutOff, waiting]
          exact decide_eq_true cause
        rw [← off.behind held, busy]
        rfl

theorem Step.calledOff {flight : Option Nat} (h : c.Step now act c')
    (same : c'.debounce.generation = c.debounce.generation) (orderly : c.Orderly)
    (off : c.CalledOff flight) :
    c'.CalledOff flight ∧ (c'.autos ≠ c.autos →
      ∃ p failure, c.pending = some p ∧ flight = some p.cycle ∧
        act = .handles (.settled p.cycle failure)) := by
  cases h with
  | still | call => exact ⟨⟨off.unarmed, off.behind⟩, fun more => absurd rfl more⟩
  | ask | post | straggle | fire | finish =>
    refine ⟨⟨?_, ?_⟩, fun more => absurd (post_autos _ _) more⟩
    · rw [post_debounce]
      exact off.unarmed
    · rw [post_autoPutOff, post_pending]
      exact off.behind
  | @handle _ rest _ _ handled =>
    have before : CalledOff flight { c with mailbox := rest } := ⟨off.unarmed, off.behind⟩
    obtain ⟨calm, cause⟩ := handled.calledOff same ⟨orderly.behind, orderly.last⟩ before
    refine ⟨calm, fun more => ?_⟩
    obtain ⟨p, failure, busy, flown, rfl⟩ := cause more
    exact ⟨p, failure, busy, flown, rfl⟩

end Coordinator

section

variable {a b m : Moment} {d : Deed} {log : Log}

/-- As long as the form lives, a wait that has been called off stays so without a qualifying edit,
and only what was put off behind a flight is put off. -/
theorem Course.calledOff {flight : Option Nat} (course : Course a log m)
    (idle : ∀ x ∈ log, ¬ Qualifies x) (alive : m.form.alive = true)
    (orderly : ∀ {log m}, Course a log m → m.form.alive = true → m.form.coordinator.Orderly)
    (first : a.form.coordinator.CalledOff flight) : m.form.coordinator.CalledOff flight := by
  induction course with
  | here => exact first
  | next before done ih =>
    obtain ⟨now, later⟩ := List.forall_mem_cons.mp idle
    have living := Moment.perform?_alive done alive
    obtain ⟨last, step, same, ends⟩ := Moment.perform?_unasked done now
    have off := (step.calledOff same (orderly before living) (ih later living)).1
    rcases ends with rfl | ⟨dead, -⟩
    · exact off
    · simp [dead] at alive

/-- A reset calls the wait off. -/
theorem Moment.perform?_reset {t : Ticket} {values : Option Json} (h : a.perform? d = some b)
    (handles : a.act d = .handles (.ask t (.reset values))) :
    b.form.autos = a.form.autos ∧ b.form.due ≤ a.form.autoPutOff.toNat ∧
      (b.form.alive = true →
        b.form.coordinator.CalledOff (a.form.coordinator.pending.map Pending.cycle)) := by
  have idle : ¬ Qualifies (a, d) := by
    intro qualifies
    simp [Qualifies, handles, Act.isHandling, Form.isQualifying] at qualifies
  obtain ⟨last, step, -, ends⟩ := perform?_unasked h idle
  obtain ⟨rest, rfl⟩ : ∃ rest, last =
      ({ a.form.coordinator with mailbox := rest }.cancel.answer [t] .done) := by
    rw [handles] at step
    cases step with
    | handle _ handled =>
      cases handled with
      | aside quiet | told quiet => cases quiet
      | reset => exact ⟨_, rfl⟩
  have same : ({ a.form.coordinator with mailbox := rest }.cancel.answer [t] .done).autos =
      a.form.autos := by
    rw [Coordinator.answer_autos, ← Form.coordinator_autos]
    rfl
  have part : b.form.autos <:+ a.form.autos := same ▸ Form.autos_suffix ends
  have stay := (Course.next .here h).autos_stay
  refine ⟨part.eq_of_length_le stay.length_le, ?_, fun alive => ?_⟩
  · rcases ends with eq | ⟨dead, -⟩
    · refine Nat.le_trans b.form.due_le ?_
      rw [eq]
      exact Nat.le_of_eq (Coordinator.cancel_due _)
    · rw [Form.due_of_dead dead]
      exact Nat.zero_le _
  · rcases ends with eq | ⟨dead, -⟩
    · rw [eq]
      exact ⟨rfl, fun _ => rfl⟩
    · simp [dead] at alive

/-- While the wait is called off, the only automatic attempt is the one that was put off. -/
theorem Moment.perform?_calledOff {flight : Option Nat} (h : a.perform? d = some b)
    (idle : ¬ Qualifies (a, d)) (one : a.form.coordinator.OneFlight)
    (off : a.form.alive = true → a.form.coordinator.Orderly ∧ a.form.coordinator.CalledOff flight)
    (more : b.form.autos ≠ a.form.autos) :
    ∃ k failure, flight = some k ∧ a.act d = .handles (.settled k failure) := by
  obtain ⟨last, step, same, ends⟩ := perform?_unasked h idle
  have made : last.autos ≠ a.form.coordinator.autos := by
    intro none
    have part : b.form.autos <:+ last.autos := Form.autos_suffix ends
    rw [none, Form.coordinator_autos] at part
    exact more (part.eq_of_length_le (Course.next .here h).autos_stay.length_le)
  by_cases handling : ∃ message, a.act d = .handles message
  · obtain ⟨message, handles⟩ := handling
    obtain ⟨orderly, off⟩ := off (alive_of_handles one handles)
    obtain ⟨p, failure, -, flown, settles⟩ := (step.calledOff same orderly off).2 made
    exact ⟨p.cycle, failure, flown, settles⟩
  · have idle : ∀ message, a.act d ≠ .handles message := fun message eq => handling ⟨message, eq⟩
    exact absurd (congrArg (List.filter Event.isAuto) (step.idle idle).2.2.2) made

end

/-! ## The main result -/

/-- After a reset, and up to the next qualifying edit, a form makes no attempt on its own, unless an
automatic submission had been put off behind the one in flight. That one may still be attempted,
when the one in flight settles, and it is the only one. -/
theorem reset_calls_off {c : FormConfig} {now : Nat} {guard : UnloadGuard} {n m : Moment} {d : Deed}
    {earlier later : Log} (course : Course (.opening c now guard) (later ++ (n, d) :: earlier) m)
    (reset : Resets (n, d)) (idle : ∀ x ∈ later, ¬ Qualifies x) :
    (n.form.autoPutOff = false → m.form.autos = n.form.autos) ∧
    (m.form.autos = n.form.autos ∨ ∃ e, m.form.autos = e :: n.form.autos) ∧
    ∀ x ∈ later, ∀ b, x.1.perform? x.2 = some b → b.form.autos ≠ x.1.form.autos →
      ∃ p failure, n.form.pending = some p ∧ x.1.act x.2 = .handles (.settled p.cycle failure) := by
  obtain ⟨t, values, handles⟩ := reset
  obtain ⟨b, before, done, after⟩ := course.split
  obtain ⟨same, due, off⟩ := Moment.perform?_reset done handles
  obtain ⟨none, one⟩ := after.autos_within idle fun further =>
    one_flight ((before.next done).append further)
  rw [same] at none one
  refine ⟨fun clear => none ?_, one (Nat.le_trans due (Bool.toNat_le _)), ?_⟩
  · rw [clear] at due
    exact Nat.eq_zero_of_le_zero due
  · rintro ⟨a, d'⟩ inside b' done' more
    obtain ⟨last, first, rfl⟩ := List.append_of_mem inside
    obtain ⟨_, between, _, _⟩ := after.split
    have whole := (before.next done).append between
    obtain ⟨k, failure, flight, settles⟩ := Moment.perform?_calledOff done' (idle _ inside)
      (one_flight whole) (fun alive => ⟨orderly whole alive, between.calledOff
        (fun x among => idle x (List.mem_append_right _ (List.mem_cons_of_mem _ among))) alive
        (fun further => orderly ((before.next done).append further))
        (off (between.alive_before alive))⟩) more
    simp only [Form.coordinator, Option.map_map, Option.map_eq_some_iff] at flight
    obtain ⟨p, pending, rfl⟩ := flight
    exact ⟨p, failure, pending, settles⟩

/-- A reset is handled while a submission is in flight and the notice that a wait is over is in the
mailbox. Nothing comes of the wait. -/
theorem reset_calls_off_queued :
    ∃ log n d m, Course (.opening (.sample ⟨true, some 10⟩ (.obj [("x", .int 0)])) 0 .new) log m ∧
      (n, d) ∈ log ∧ Resets (n, d) ∧ n.form.debounce.armed = true ∧
      n.form.pending.isSome = true ∧ m.form.pending = none ∧ m.form.autos = n.form.autos := by
  obtain ⟨log, m, course, -, passed⟩ := Moment.course_of_test
    (.opening (.sample ⟨true, some 10⟩ (.obj [("x", .int 0)])) 0 .new)
    [.ask 0 .submit, .handle, .change ⟨["x"]⟩ (.int 1), .handle, .ask 1 (.reset none), .pass 10,
      .fireDebounce, .handle, .handle, .startCall 0 0, .pass 5, .endCall 0 0, .finishRun 0, .handle]
    (fun log m => m.form.pending.isNone && (log.take 6).all (fun x => !decide (Qualifies x)) &&
      log[6]?.any fun x => decide (Resets x) && x.1.form.debounce.armed &&
        x.1.form.pending.isSome && !x.1.form.autoPutOff)
    (by decide +kernel)
  simp only [Bool.and_eq_true, Option.any_eq_true, Option.isNone_iff_eq_none, List.all_eq_true,
    Bool.not_eq_true', decide_eq_true_eq, decide_eq_false_iff_not] at passed
  obtain ⟨⟨free, idle⟩, ⟨n, d⟩, place, ⟨⟨reset, armed⟩, busy⟩, clear⟩ := passed
  rw [Log.around place] at course
  refine ⟨_, n, d, m, course, by simp, reset, armed, busy, free, ?_⟩
  exact (reset_calls_off course reset idle).1 clear

/-- While a submission is in flight an edit is made and its wait comes to an end. A reset does not
take back the submission that is put off: once the one in flight has settled, the form submits
without having been edited. -/
theorem reset_leaves_put_off :
    ∃ later n d earlier m, Course (.opening (.sample ⟨true, none⟩ (.obj [("x", .int 0)])) 0 .new)
        (later ++ (n, d) :: earlier) m ∧
      Resets (n, d) ∧ (∀ x ∈ later, ¬ Qualifies x) ∧
      n.form.autos = [] ∧ m.form.autos ≠ [] ∧ ∃ p, m.form.pending = some p ∧ p.trigger = .auto := by
  obtain ⟨log, m, course, -, passed⟩ := Moment.course_of_test
    (.opening (.sample ⟨true, none⟩ (.obj [("x", .int 0)])) 0 .new)
    [.ask 0 .submit, .handle, .change ⟨["x"]⟩ (.int 1), .handle, .handle, .ask 1 (.reset none),
      .handle, .startCall 0 0, .pass 5, .endCall 0 0, .finishRun 0, .handle]
    (fun log m => !m.form.autos.isEmpty && m.form.pending.any (fun p => p.trigger = .auto) &&
      (log.take 5).all (fun x => !decide (Qualifies x)) &&
      log[5]?.any fun x => decide (Resets x) && x.1.form.autos.isEmpty)
    (by decide +kernel)
  simp only [Bool.and_eq_true, Option.any_eq_true, List.isEmpty_iff, List.all_eq_true,
    List.isEmpty_eq_false_iff, Bool.not_eq_true', decide_eq_true_eq,
    decide_eq_false_iff_not] at passed
  obtain ⟨⟨⟨made, auto⟩, idle⟩, ⟨n, d⟩, place, reset, none⟩ := passed
  rw [Log.around place] at course
  exact ⟨_, n, d, _, m, course, reset, idle, none, made, auto⟩

end LiveForm
