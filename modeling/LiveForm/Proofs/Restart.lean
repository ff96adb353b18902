import LiveForm.Proofs.Due

/-!
# What an attempt leaves due

An attempt takes up all edits so far. It calls the wait off, and nothing is put off behind it.

* `Step.attempted`: only an attempt that follows the end of another submission lets a wait go on;
* `Course.unelapsed`: without the end of a wait a form submits nothing on its own;
* `Course.waits_anew`: waits that count later on have been set anew since;
* `auto_needs_edit`: so between an attempt and a later automatic one there is a qualifying edit,
  and a wait set after the attempt comes to its end.
-/

set_option autoImplicit false

namespace LiveForm

/-- The end of the current wait is heard of in a deed. -/
def Elapses (x : Moment × Deed) : Prop := (x.1.act x.2).elapses x.1.form.debounce = true

instance : DecidablePred Elapses := fun _ => inferInstanceAs (Decidable (_ = true))

/-- A wait that comes to its end was on. -/
theorem Elapses.armed {x : Moment × Deed} (h : Elapses x) :
    x.1.form.debounce.armed = true ∧ ∃ g, x.1.act x.2 = .handles (.debounceElapsed g) := by
  unfold Elapses Act.elapses at h
  split at h
  · rename_i g handles
    exact ⟨(Bool.and_eq_true_iff.mp h).2, g, handles⟩
  · cases h

/-- The end of the submission in flight is heard of in a deed, while another one is put off behind
it and a wait is on. -/
structure Restarts (x : Moment × Deed) : Prop where
  armed : x.1.form.debounce.armed = true
  waiting : x.1.form.deferred.isSome = true
  settles : ∃ p failure, x.1.form.pending = some p ∧
    x.1.act x.2 = .handles (.settled p.cycle failure)

/-! ## What a step leaves -/

namespace Coordinator

variable {now : Nat} {c c' : Coordinator} {m : Message} {act : Act}

/-- After an attempt nothing is put off. A wait goes on only if the attempt follows the end of
another submission. -/
theorem Handles.attempted (h : c.Handles now m c') (orderly : c.Orderly)
    (more : c'.attempts ≠ c.attempts) :
    c'.deferred = none ∧ (c'.debounce.armed = true →
      c.debounce.armed = true ∧ c.deferred.isSome = true ∧
        ∃ p failure, c.pending = some p ∧ m = .settled p.cycle failure) := by
  cases h with
  | submitNow free next | elapsedNow _ free next =>
    obtain ⟨debounce, -, deferred⟩ := next.waits
    refine ⟨deferred.trans (orderly.clear free), fun armed => ?_⟩
    rw [debounce] at armed
    cases armed
  | @settledNext p d failure _ busy waiting next =>
    obtain ⟨debounce, -, deferred⟩ := next.waits
    refine ⟨deferred, fun armed => ⟨debounce ▸ armed, ?_, p, failure, busy, rfl⟩⟩
    exact Option.isSome_of_eq_some waiting
  | settledLast => exact absurd (settle_attempts c _ _) more
  | told | reset => exact absurd (answer_attempts _ _ _) more
  | changed => exact absurd (request_attempts _ _) more
  | written => exact absurd ((answer_attempts _ _ _).trans (request_attempts _ _)) more
  | _ => exact absurd rfl more

theorem Step.attempted (h : c.Step now act c') (orderly : c.Orderly)
    (more : c'.attempts ≠ c.attempts) :
    c'.deferred = none ∧ (c'.debounce.armed = true →
      c.debounce.armed = true ∧ c.deferred.isSome = true ∧
        ∃ p failure, c.pending = some p ∧ act = .handles (.settled p.cycle failure)) := by
  cases h with
  | handle _ handled =>
    obtain ⟨clear, armed⟩ := handled.attempted ⟨orderly.behind, orderly.last⟩ more
    refine ⟨clear, fun on => ?_⟩
    obtain ⟨before, waiting, p, failure, busy, rfl⟩ := armed on
    exact ⟨before, waiting, p, failure, busy, rfl⟩
  | still | call => exact absurd rfl more
  | ask | post | straggle | fire | finish => simp [attempts] at more

/-- Without the end of a wait no automatic submission is put off, and none is attempted that had not
been put off. -/
theorem Handles.unelapsed (h : c.Handles now m c')
    (none : Act.elapses c.debounce (.handles m) = false) (clear : c.autoPutOff = false) :
    c'.autoPutOff = false ∧ c'.autos = c.autos := by
  cases h with
  | aside | stale | unknown => exact ⟨clear, rfl⟩
  | told => exact ⟨clear, answer_autos _ _ _⟩
  | reset => exact ⟨clear, answer_autos c.cancel _ _⟩
  | changed => exact ⟨(request_autoPutOff c now).trans clear, request_autos c now⟩
  | written =>
    rw [answer_autos, request_autos]
    exact ⟨(request_autoPutOff c now).trans clear, rfl⟩
  | submitLater => exact ⟨defer_manual _ _, rfl⟩
  | submitNow _ next =>
    obtain ⟨-, -, deferred⟩ := next.waits
    obtain ⟨_, made⟩ := next.autos
    rw [autoPutOff, deferred]
    exact ⟨clear, made⟩
  | elapsedLater armed | elapsedNow armed => simp [Act.elapses, armed] at none
  | settledLast => exact ⟨clear, settle_autos _ _ _⟩
  | @settledNext p d failure _ _ waiting next =>
    obtain ⟨-, -, deferred⟩ := next.waits
    obtain ⟨_, made⟩ := next.autos
    have manual : d.trigger ≠ .auto := by
      rw [autoPutOff, waiting] at clear
      exact of_decide_eq_false clear
    rw [autoPutOff, deferred]
    rw [if_neg manual] at made
    exact ⟨rfl, made.trans (settle_autos c p failure)⟩

theorem Step.unelapsed (h : c.Step now act c') (none : act.elapses c.debounce = false)
    (clear : c.autoPutOff = false) : c'.autoPutOff = false ∧ c'.autos = c.autos := by
  cases h with
  | still | call => exact ⟨clear, rfl⟩
  | ask | post | straggle | fire | finish =>
    rw [post_autoPutOff, post_autos]
    exact ⟨clear, rfl⟩
  | handle _ handled => exact handled.unelapsed none clear

/-- Since the waits had this number, no wait has been set, or the wait that is on has a later one. -/
structure Anew (generation : Nat) (c : Coordinator) : Prop where
  grown : generation ≤ c.debounce.generation
  later : c.debounce.armed = true → generation < c.debounce.generation

theorem Handles.anew {generation : Nat} (h : c.Handles now m c') (before : c.Anew generation) :
    c'.Anew generation := by
  have grown := before.grown
  rcases h.waits with ⟨debounce, -⟩ | ⟨debounce, -⟩ | ⟨debounce, -⟩
  · exact ⟨debounce ▸ before.grown, debounce ▸ before.later⟩
  · refine ⟨debounce ▸ before.grown, fun armed => ?_⟩
    rw [debounce] at armed
    cases armed
  · have next : generation < c'.debounce.generation := by
      rw [debounce, request_generation]
      omega
    exact ⟨Nat.le_of_lt next, fun _ => next⟩

theorem Step.anew {generation : Nat} (h : c.Step now act c') (before : c.Anew generation) :
    c'.Anew generation := by
  by_cases handling : ∃ m, act = .handles m
  · obtain ⟨m, rfl⟩ := handling
    cases h with
    | handle _ handled => exact handled.anew ⟨before.grown, before.later⟩
  · obtain ⟨same, armed, -⟩ := h.idle fun m eq => handling ⟨m, eq⟩
    constructor
    · rw [same]
      exact before.grown
    · rw [same, armed]
      exact before.later

end Coordinator

/-! ## Along a course -/

section

variable {a b m : Moment} {d : Deed} {log : Log}

/-- Waits that are on later on have been set anew since. -/
theorem Course.waits_anew {generation : Nat} (course : Course a log m)
    (alive : m.form.alive = true) (first : a.form.coordinator.Anew generation) :
    m.form.coordinator.Anew generation := by
  induction course with
  | here => exact first
  | next _ done ih =>
    exact ((Moment.perform?_leaves done).step alive).anew (ih (Moment.perform?_alive done alive))

/-- A deed that makes an attempt leaves nothing put off, and no wait unless it restarts. -/
theorem Moment.perform?_attempted (h : a.perform? d = some b)
    (orderly : a.form.alive = true → a.form.coordinator.Orderly)
    (one : b.form.coordinator.OneFlight) (more : b.form.attempts ≠ a.form.attempts) :
    b.form.autoPutOff = false ∧
      (b.form.alive = true → b.form.debounce.armed = true → Restarts (a, d)) := by
  cases living : b.form.alive with
  | true =>
    rw [← Form.coordinator_attempts, ← Form.coordinator_attempts] at more
    have step := (perform?_leaves h).step living
    obtain ⟨clear, armed⟩ := step.attempted (orderly (perform?_alive h living)) more
    have clear : b.form.deferred = none := clear
    refine ⟨by rw [Form.autoPutOff, clear]; rfl, fun _ on => ?_⟩
    obtain ⟨before, waiting, p, failure, busy, settles⟩ := armed on
    obtain ⟨q, pending, rfl⟩ := Option.map_eq_some_iff.mp busy
    exact ⟨before, waiting, q, failure, pending, settles⟩
  | false =>
    have forgotten : b.form.deferred = none := (one.fallen living).1.forgotten
    exact ⟨by rw [Form.autoPutOff, forgotten]; rfl, fun alive => absurd alive Bool.false_ne_true⟩

/-- A deed in which no wait comes to its end makes no automatic attempt that had not been put off. -/
theorem Moment.perform?_unelapsed (h : a.perform? d = some b) (none : ¬ Elapses (a, d))
    (clear : a.form.autoPutOff = false) :
    b.form.autoPutOff = false ∧ b.form.autos = a.form.autos := by
  have none := Bool.eq_false_iff.mpr none
  cases perform?_leaves h with
  | whole step =>
    rw [← Form.coordinator_autos, ← Form.coordinator_autos]
    exact step.unelapsed none clear
  | @rest last step gone part =>
    have forgotten : b.form.deferred = Option.none := gone.forgotten
    have part : b.form.coordinator.autos <:+ last.autos := part.autos
    rw [(step.unelapsed none clear).2, Form.coordinator_autos, Form.coordinator_autos] at part
    have stay := (Course.next .here h).autos_stay
    refine ⟨by rw [Form.autoPutOff, forgotten]; rfl, part.eq_of_length_le stay.length_le⟩

/-- As long as no wait comes to its end, a form that has put nothing off submits nothing on its
own. -/
theorem Course.unelapsed (course : Course a log m) (none : ∀ x ∈ log, ¬ Elapses x)
    (clear : a.form.autoPutOff = false) :
    m.form.autoPutOff = false ∧ m.form.autos = a.form.autos := by
  induction course with
  | here => exact ⟨clear, rfl⟩
  | next _ done ih =>
    obtain ⟨now, later⟩ := List.forall_mem_cons.mp none
    obtain ⟨off, same⟩ := ih later
    obtain ⟨off, still⟩ := Moment.perform?_unelapsed done now off
    exact ⟨off, still.trans same⟩

end

/-! ## The main result -/

/-- Between an attempt and a later automatic one there is a qualifying edit, and a wait comes to its
end; all waits that do were set after the attempt. This holds unless the attempt follows the end of
another submission while a wait is on: then one more automatic attempt may come of that wait, and
further ones after qualifying edits only. -/
theorem auto_needs_edit {c : FormConfig} {now : Nat} {guard : UnloadGuard} {n b m : Moment} {d : Deed}
    {earlier later : Log} (course : Course (.opening c now guard) (later ++ (n, d) :: earlier) m)
    (done : n.perform? d = some b) (attempted : b.form.attempts ≠ n.form.attempts) :
    (¬ Restarts (n, d) →
      (m.form.autos ≠ b.form.autos → (∃ x ∈ later, Qualifies x) ∧ ∃ x ∈ later, Elapses x) ∧
      ∀ x ∈ later, Elapses x → b.form.debounce.generation < x.1.form.debounce.generation) ∧
    ((∀ x ∈ later, ¬ Qualifies x) →
      m.form.autos = b.form.autos ∨ ∃ e, m.form.autos = e :: b.form.autos) := by
  obtain ⟨b', before, done', after⟩ := course.split
  obtain rfl := Option.some.inj (done.symm.trans done')
  have one {log : Log} {m : Moment} (further : Course b log m) : m.form.coordinator.OneFlight :=
    one_flight ((before.next done).append further)
  obtain ⟨clear, restarts⟩ := Moment.perform?_attempted done (orderly before) (one .here) attempted
  have due : b.form.coordinator.due = b.form.debounce.armed.toNat := by
    have clear : b.form.coordinator.autoPutOff = false := clear
    rw [Coordinator.due, clear]
    rfl
  refine ⟨fun other => ⟨fun more => ⟨?_, ?_⟩, ?_⟩, fun idle => ?_⟩
  · by_contra idle
    have none : b.form.due = 0 := by
      cases alive : b.form.alive with
      | true =>
        have unarmed := Bool.eq_false_iff.mpr fun on => other (restarts alive on)
        rw [Form.due, alive, if_pos rfl, due, unarmed]
        rfl
      | false => exact Form.due_of_dead alive
    exact more ((after.autos_within (fun x among asks => idle ⟨x, among, asks⟩) one).1 none)
  · by_contra none
    have none : ∀ x ∈ later, ¬ Elapses x := fun x among ends => none ⟨x, among, ends⟩
    exact more (after.unelapsed none clear).2
  · rintro ⟨a, d'⟩ inside elapses
    obtain ⟨armed, g, handles⟩ := elapses.armed
    obtain ⟨last, first, rfl⟩ := List.append_of_mem inside
    obtain ⟨_, between, _, _⟩ := after.split
    have alive := Moment.alive_of_handles (one between) handles
    have unarmed : b.form.debounce.armed ≠ true :=
      fun on => other (restarts (between.alive_before alive) on)
    exact (between.waits_anew alive ⟨Nat.le_refl _, fun on => absurd on unarmed⟩).later armed
  · refine (after.autos_within idle one).2 (Nat.le_trans b.form.due_le ?_)
    rw [due]
    exact Bool.toNat_le _

/-- An edit is submitted, and the wait it had set is called off. The next edit sets another one, and is
submitted too. -/
theorem auto_needs_edit_twice :
    ∃ later n d earlier b m, Course (.opening (.sample ⟨true, some 20⟩ (.obj [("x", .int 0)])) 0 .new)
        (later ++ (n, d) :: earlier) m ∧
      n.perform? d = some b ∧ b.form.autos = [] ∧ m.form.autos ≠ [] ∧
      (∃ x ∈ later, Qualifies x) ∧
      ∃ x ∈ later, Elapses x ∧ b.form.debounce.generation < x.1.form.debounce.generation := by
  obtain ⟨log, m, course, -, passed⟩ := Moment.course_of_test
    (.opening (.sample ⟨true, some 20⟩ (.obj [("x", .int 0)])) 0 .new)
    [.change ⟨["x"]⟩ (.int 1), .handle, .ask 0 .submit, .handle, .startCall 0 0, .pass 5,
      .endCall 0 0, .finishRun 0, .handle, .change ⟨["x"]⟩ (.int 2), .handle, .pass 20,
      .fireDebounce, .handle]
    (fun log m => !m.form.autos.isEmpty && log[10]?.any fun x =>
      x.1.form.deferred.isNone && (x.1.perform? x.2).any fun b => b.form.autos.isEmpty &&
        decide (b.form.attempts.length ≠ x.1.form.attempts.length))
    (by decide +kernel)
  simp only [Bool.and_eq_true, Option.any_eq_true, List.isEmpty_iff, Option.isNone_iff_eq_none,
    List.isEmpty_eq_false_iff, Bool.not_eq_true', decide_eq_true_eq] at passed
  obtain ⟨made, ⟨n, d⟩, place, nothing, b, done, none, more⟩ := passed
  rw [Log.around place] at course
  have attempted : b.form.attempts ≠ n.form.attempts := fun same => more (congrArg List.length same)
  have other : ¬ Restarts (n, d) := fun restarts =>
    Option.not_isSome_iff_eq_none.mpr nothing restarts.waiting
  obtain ⟨edit, anew⟩ := (auto_needs_edit course done attempted).1 other
  obtain ⟨qualifies, x, among, ends⟩ := edit (none.symm ▸ made)
  exact ⟨_, n, d, _, b, m, course, done, none, made, qualifies, x, among, ends, anew x among ends⟩

/-- An edit is made while a submission is in flight, and its wait is on when the submission put off
behind it begins and takes the edit up. The wait goes on, and the form submits a third time. -/
theorem auto_without_edit :
    ∃ later n d earlier b m, Course (.opening (.sample ⟨true, some 100⟩ (.obj [("x", .int 0)])) 0 .new)
        (later ++ (n, d) :: earlier) m ∧
      n.perform? d = some b ∧ b.form.cycles = n.form.cycles + 1 ∧
      (∀ x ∈ later, ¬ Qualifies x) ∧ b.form.autos = [] ∧
      m.form.autos ≠ [] ∧ ∃ p, m.form.pending = some p ∧ p.trigger = .auto ∧ p.cycle = 3 := by
  obtain ⟨log, m, course, -, passed⟩ := Moment.course_of_test
    (.opening (.sample ⟨true, some 100⟩ (.obj [("x", .int 0)])) 0 .new)
    [.ask 0 .submit, .handle, .change ⟨["x"]⟩ (.int 1), .handle, .ask 1 .submit, .handle,
      .startCall 0 0, .pass 5, .endCall 0 0, .finishRun 0, .handle, .startCall 0 0, .pass 5,
      .endCall 0 0, .finishRun 0, .handle, .pass 90, .fireDebounce, .handle]
    (fun log m => !m.form.autos.isEmpty &&
      m.form.pending.any (fun p => p.trigger = .auto ∧ p.cycle = 3) &&
      (log.take 8).all (fun x => !decide (Qualifies x)) &&
      log[8]?.any fun x => (x.1.perform? x.2).any fun b =>
        b.form.autos.isEmpty && decide (b.form.cycles = x.1.form.cycles + 1))
    (by decide +kernel)
  simp only [Bool.and_eq_true, Option.any_eq_true, List.isEmpty_iff, List.all_eq_true,
    List.isEmpty_eq_false_iff, Bool.not_eq_true', decide_eq_true_eq,
    decide_eq_false_iff_not] at passed
  obtain ⟨⟨⟨made, p, pending, auto, third⟩, idle⟩, ⟨n, d⟩, place, b, done, none, begun⟩ := passed
  rw [Log.around place] at course
  exact ⟨_, n, d, _, b, m, course, done, begun, idle, none, made, p, pending, auto, third⟩

end LiveForm
