import Mathlib.Algebra.Ring.Nat
import LiveForm.Proofs.Standing.Step

/-!
# Snapshots that make sense

The parts of a snapshot agree with each other, with the phase it is published under, and with the
submissions that have begun by then.

* `Snapshot.Coheres`: what the parts of a snapshot say of each other;
* `Standing.Coherent`: what the standing of a form says at each stage, so that any snapshot taken
  there coheres;
* `Standing.Coherent.move`: every move keeps it;
* `snapshots_cohere`: so the state of a form and all that it publishes cohere, on every course.
-/

set_option autoImplicit false

namespace LiveForm

/-- The cycle that an event begins. -/
def Event.began? : Event → Option Nat
  | .began cycle _ => some cycle
  | _ => none

/-- The cycles begun in a history, the last one first. -/
def Event.begun (history : List Event) : List Nat := history.filterMap Event.began?

/-- The parts of a snapshot agree, given the cycles begun by then. The count is kept in a word. -/
structure Snapshot.Coheres (x : Snapshot) (disabled : Bool) (begun : List Nat) : Prop where
  submitting : x.isSubmitting = true ↔ x.phase = .submitting
  successful : x.isSubmitSuccessful = true → x.isSubmitting = false ∧ x.errors = []
  settledOk : x.phase = .settledOk → x.isSubmitSuccessful = true
  settledError : x.phase = .settledError → x.isSubmitSuccessful = false
  errors : x.errors ≠ [] → x.isSubmitting = false
  last : x.lastSubmissionId = begun.head?.map submissionId
  counted : begun.length < 2 ^ 32 → x.submitCount.toNat = begun.length ∧
    (x.submitCount = 0 ↔ x.lastSubmissionId = none)
  hidden : disabled = true → x.showLoader = false
  visible : disabled = false → x.isSubmitting = true → x.showLoader = true

/-- What is published in a history coheres with what has begun before. -/
def Event.Told (disabled : Bool) (history : List Event) : Prop :=
  ∀ later x past, history = later ++ .published x :: past → x.Coheres disabled (Event.begun past)

theorem Event.Told.cons {disabled : Bool} {history : List Event} {e : Event}
    (told : Event.Told disabled history)
    (new : ∀ x, e = .published x → x.Coheres disabled (Event.begun history)) :
    Event.Told disabled (e :: history) := by
  intro later x past whole
  cases later with
  | nil =>
    obtain ⟨rfl, rfl⟩ := List.cons.inj whole
    exact new x rfl
  | cons _ later => exact told later x past (List.cons.inj whole).2

/-- What holds at a stage besides. -/
def Stage.Fits (st : Standing) : Stage → Prop
  | .resting => True
  | .begun => st.flying = true
  | .halted => st.flying = false ∧ st.successful = false
  | .stopped => st.flying = false
  | .landed _ => st.flying = false ∧ st.successful = false ∧ st.errors = []
  | .judged failure => st.flying = false ∧ st.successful = failure.isNone ∧ st.errors = []
  | .cleared failure => st.flying = false ∧ st.successful = failure.isNone ∧ st.errors = []
  | .shown => st.flying = false

structure Standing.Coherent (disabled : Bool) (stage : Stage) (st : Standing) : Prop where
  setup : st.disabled = disabled
  counted : st.cycles = (Event.begun st.marks).length
  last : st.lastCycle = (Event.begun st.marks).head?
  successful : st.successful = true → st.flying = false ∧ st.errors = []
  errors : st.errors ≠ [] → st.flying = false
  lit : st.flying = true → st.loader.visible = true
  changed : st.changed ≠ [] → st.flying = true
  published : ∃ past, past <:+ st.marks ∧ st.published.Coheres disabled (Event.begun past)
  told : Event.Told disabled st.marks
  fits : stage.Fits st

namespace Standing

variable {disabled : Bool} {stage stage' : Stage} {st : Standing} {phase : FormPhase} {x : Snapshot}

/-- A phase that is shown is that of a submission in flight just if there is one. -/
theorem Coherent.submitting (h : st.Coherent disabled stage)
    (next : stage.Next st.flying phase stage') : phase = .submitting ↔ st.flying = true := by
  have fits := h.fits
  cases next with
  | begun => exact iff_of_true rfl fits
  | halted => simp [fits.1]
  | succeeded | failed => simp [fits.1]
  | resting rests | stopped rests | shown rests => exact rests.submitting

/-- A settled phase that is shown tells the outcome. -/
theorem Coherent.settled (h : st.Coherent disabled stage)
    (next : stage.Next st.flying phase stage') :
    (phase = .settledOk → st.successful = true) ∧
      (phase = .settledError → st.successful = false) := by
  have fits := h.fits
  cases next with
  | begun => simp
  | halted => simp [fits.2]
  | succeeded | failed => simp [fits.2]
  | resting rests | stopped rests | shown rests =>
    exact ⟨fun ok => absurd ok rests.notOk, fun error => absurd error rests.notError⟩

/-- A snapshot taken on the way coheres. -/
theorem Coherent.snapshot (h : st.Coherent disabled stage)
    (next : stage.Next st.flying phase stage') (seen : st.Shows phase x) :
    x.Coheres disabled (Event.begun st.marks) := by
  have submitting := h.submitting next
  obtain ⟨ok, error⟩ := h.settled next
  constructor
  · rw [seen.submitting, seen.phase]
    exact submitting.symm
  · rw [seen.successful, seen.submitting, seen.errors]
    exact h.successful
  · rw [seen.phase, seen.successful]
    exact ok
  · rw [seen.phase, seen.successful]
    exact error
  · rw [seen.errors, seen.submitting]
    exact h.errors
  · rw [seen.last, h.last]
  · intro few
    have count : x.submitCount.toNat = (Event.begun st.marks).length := by
      rw [seen.count, h.counted]
      exact UInt32.toNat_ofNat_of_lt' few
    refine ⟨count, ?_⟩
    rw [seen.last, h.last, ← UInt32.toNat_inj, count]
    cases Event.begun st.marks <;> simp
  · intro off
    simp [seen.loader, h.setup, off]
  · intro shown flying
    rw [seen.submitting] at flying
    simp [seen.loader, h.setup, shown, h.lit flying]

/-- A snapshot that is published is told, and nothing else changes. -/
theorem Coherent.publish (h : st.Coherent disabled stage) (next : stage.Next st.flying phase stage')
    (seen : st.Shows phase x) : (st.publish x).Coherent disabled stage' := by
  have coheres := h.snapshot next seen
  have fits : stage'.Fits st := by
    have before := h.fits
    cases next with
    | begun => trivial
    | halted | succeeded | failed => exact before.1
    | resting | stopped | shown => trivial
  unfold Standing.publish
  split
  · exact { h with fits }
  · by_cases watched : st.watched = true
    · rw [if_pos watched]
      refine ⟨h.setup, h.counted, h.last, h.successful, h.errors, h.lit, h.changed, ?_, ?_, ?_⟩
      · exact ⟨_, List.suffix_rfl, coheres⟩
      · apply h.told.cons
        intro y same
        cases same
        exact coheres
      · cases stage' <;> exact fits
    · rw [if_neg watched]
      refine ⟨h.setup, h.counted, h.last, h.successful, h.errors, h.lit, h.changed, ?_, h.told, ?_⟩
      · exact ⟨st.marks, List.suffix_rfl, coheres⟩
      · cases stage' <;> exact fits

theorem Coherent.begin (h : st.Coherent disabled stage) (trigger : Trigger) :
    (st.begin trigger).Coherent disabled .begun where
  setup := h.setup
  counted := congrArg (· + 1) h.counted
  last := rfl
  successful := by rintro ⟨⟩
  errors := by simp [Standing.begin]
  lit _ := rfl
  changed _ := rfl
  published :=
    let ⟨past, before, coheres⟩ := h.published
    ⟨past, before.trans (List.suffix_cons _ _), coheres⟩
  told := h.told.cons (by rintro x ⟨⟩)
  fits := rfl

/-- No submission is in flight where the next may begin. -/
theorem Coherent.free (h : st.Coherent disabled stage) (free : stage.Free st) :
    st.flying = false := by
  cases stage with
  | resting => exact free
  | shown => exact h.fits
  | _ => cases free

theorem Coherent.halt (h : st.Coherent disabled stage) (free : stage.Free st) (trigger : Trigger)
    (errors : FieldErrors) : (st.halt trigger errors).Coherent disabled .halted where
  setup := h.setup
  counted := h.counted
  last := h.last
  successful := by rintro ⟨⟩
  errors _ := h.free free
  lit := h.lit
  changed := h.changed
  published :=
    let ⟨past, before, coheres⟩ := h.published
    ⟨past, before.trans (List.suffix_cons _ _), coheres⟩
  told := h.told.cons (by rintro x ⟨⟩)
  fits := ⟨h.free free, rfl⟩

/-- What a submission in flight has left when it ends: no errors, and no success so far. -/
theorem Coherent.land (h : st.Coherent disabled .resting) (busy : st.flying = true) (cycle : Nat)
    (failure : Option SubmitError) :
    (st.land cycle failure).Coherent disabled (.landed failure) := by
  have errors : st.errors = [] := by
    by_contra some
    exact absurd busy (by simp [h.errors some])
  have successful : st.successful = false := by
    apply Bool.eq_false_iff.mpr
    intro ended
    exact absurd busy (by simp [(h.successful ended).1])
  obtain ⟨past, before, coheres⟩ := h.published
  constructor
  · exact h.setup
  · exact h.counted
  · exact h.last
  · intro _
    exact ⟨rfl, errors⟩
  · intro _
    rfl
  · rintro ⟨⟩
  · intro some
    exact absurd rfl some
  · exact ⟨past, before.trans (List.suffix_cons _ _), coheres⟩
  · exact h.told.cons (by rintro x ⟨⟩)
  · exact ⟨rfl, successful, errors⟩

theorem Coherent.move {a b : Stage × Standing} (move : Move a b) (h : a.2.Coherent disabled a.1) :
    b.2.Coherent disabled b.1 := by
  cases move with
  | notes busy => exact { h with changed := fun _ => busy, fits := trivial }
  | @writes stage =>
    have fits := h.fits
    exact { h with fits := by cases stage <;> exact fits }
  | resets =>
    exact { h with
      successful := fun ended => ⟨(h.successful ended).1, rfl⟩
      errors := fun some => absurd rfl some
      changed := fun some => absurd rfl some
      fits := trivial }
  | hears => exact { h with fits := trivial }
  | hides _ free =>
    exact { h with
      lit := fun busy => absurd (free.symm.trans busy) (by simp)
      fits := trivial }
  | begins => exact h.begin _
  | halts free => exact h.halt free _ _
  | lands busy => exact h.land busy _ _
  | judges =>
    obtain ⟨free, -, errors⟩ := h.fits
    exact { h with
      successful := fun _ => ⟨free, errors⟩
      fits := ⟨free, rfl, errors⟩ }
  | clears =>
    exact { h with
      lit := fun busy => absurd (h.fits.1.symm.trans busy) (by simp)
      fits := h.fits }
  | shows next seen => exact h.publish next seen

theorem Coherent.drift {st' : Standing} (drifts : st.Drifts true st')
    (h : st.Coherent disabled .resting) : st'.Coherent disabled .resting := by
  cases drifts with
  | still => exact h
  | told | fires | lost => exact { h with fits := trivial }

end Standing

/-! ## Along a course -/

/-- Beginnings are among the marks. -/
theorem Event.begun_marks (history : List Event) :
    Event.begun (history.filter Event.isMark) = Event.begun history := by
  unfold begun
  rw [List.filterMap_filter]
  apply List.filterMap_congr
  intro e _
  cases e <;> rfl

theorem Form.make_coherent (c : FormConfig) (now : Nat) :
    (Form.make c now).standing.Coherent c.disableLoader .resting := by
  have blank : Snapshot.blank.Coheres c.disableLoader [] := by
    constructor <;> simp [Snapshot.blank]
  constructor
  · rfl
  · rfl
  · rfl
  · rintro ⟨⟩
  · intro some
    exact absurd rfl some
  · rintro ⟨⟩
  · intro some
    exact absurd rfl some
  · exact ⟨[], List.suffix_rfl, blank⟩
  · intro later x past whole
    simp [Form.standing, Form.make] at whole
  · trivial

theorem Course.coherent {c : FormConfig} {now : Nat} {guard : UnloadGuard} {m : Moment} {log : Log}
    (course : Course (.opening c now guard) log m) :
    m.form.Upholds fun stage st => st.Coherent c.disableLoader stage :=
  course.upholds (P := fun stage st => st.Coherent c.disableLoader stage)
    (fun move before => before.move move) (fun drifts before => before.drift drifts)
    (Form.make_coherent c now)

section

variable {disabled : Bool} {f : Form}

/-- The state of a form that rests coheres with the cycles begun so far. -/
theorem Standing.Coherent.state (h : f.standing.Coherent disabled .resting) :
    f.currentSnapshot.Coheres disabled (Event.begun f.history) := by
  have snapshot := h.snapshot (.resting f.phase_rests) (f.standing_shows _)
  have marks : f.standing.marks = f.history.filter Event.isMark := rfl
  rwa [marks, Event.begun_marks] at snapshot

/-- So does each snapshot that its observer was called with, with those begun before. -/
theorem Form.Upholds.told_coheres (h : f.Upholds fun stage st => st.Coherent disabled stage) :
    ∀ later x past, f.history = later ++ .published x :: past →
      x.Coheres disabled (Event.begun past) := by
  intro later x past whole
  obtain ⟨stage, st, held, marks, -⟩ := h.marks
  have split : st.marks =
      later.filter Event.isMark ++ .published x :: past.filter Event.isMark := by
    rw [← marks, Form.standing, whole, List.filter_append]
    rfl
  have coheres := held.told _ _ _ split
  rwa [Event.begun_marks] at coheres

/-- So does the one published last. -/
theorem Form.Upholds.published_coheres (h : f.Upholds fun stage st => st.Coherent disabled stage) :
    ∃ begun, begun <:+ Event.begun f.history ∧ f.published.Coheres disabled begun := by
  obtain ⟨stage, st, held, marks, published⟩ := h.marks
  obtain ⟨past, before, coheres⟩ := held.published
  rw [published, ← Event.begun_marks f.history]
  refine ⟨Event.begun past, ?_, coheres⟩
  rw [← marks] at before
  exact before.filterMap _

end

/-- All that a message publishes coheres with the cycles begun by then. -/
theorem Moment.handle_coherent {a b : Moment} {disabled : Bool} (h : a.perform? .handle = some b)
    (one : a.form.coordinator.OneFlight)
    (before : a.form.Upholds fun stage st => st.Coherent disabled stage) :
    ∃ message rest xs, a.form.mailbox = message :: rest ∧
      Turn.Publishes (a.scene.update fun f => { f with mailbox := rest }) xs
        ((a.scene.update fun f => { f with mailbox := rest }).handle a.now message) ∧
      ∀ x ∈ xs, ∃ begun, Event.begun a.form.history <:+ begun ∧
        begun <:+ Event.begun b.form.history ∧ x.Coheres disabled begun := by
  obtain ⟨message, rest, xs, mailbox, publishes, taken⟩ :=
    handle_publishes h one before fun move coherent => coherent.move move
  refine ⟨message, rest, xs, mailbox, publishes, fun x among => ?_⟩
  obtain ⟨stage, st, phase, stage', coherent, past, later, -, next, seen⟩ := taken x among
  refine ⟨Event.begun st.marks, ?_, ?_, coherent.snapshot next seen⟩
  · rw [← Event.begun_marks a.form.history]
    exact past.filterMap _
  · rw [← Event.begun_marks b.form.history]
    exact later.filterMap _

/-- The state of a form that lives coheres with the cycles begun so far, and so does each snapshot
that its observer was called with, with the cycles begun before it, and each that a message
publishes, observed or not; also the one published last, of a form that has ended. Between two
messages something is put off, or an edit is kept in mind, only while a submission is in flight. -/
theorem snapshots_cohere {c : FormConfig} {now : Nat} {guard : UnloadGuard} {m : Moment} {log : Log}
    (course : Course (.opening c now guard) log m) :
    (m.form.alive = true →
      m.form.currentSnapshot.Coheres c.disableLoader (Event.begun m.form.history) ∧
      (m.form.deferred.isSome = true → m.form.pending.isSome = true) ∧
      (m.form.changedDuringSubmit ≠ [] → m.form.pending.isSome = true)) ∧
    (∀ later x past, m.form.history = later ++ .published x :: past →
      x.Coheres c.disableLoader (Event.begun past)) ∧
    (∀ b, m.perform? .handle = some b → ∃ message rest xs, m.form.mailbox = message :: rest ∧
      Turn.Publishes (m.scene.update fun f => { f with mailbox := rest }) xs
        ((m.scene.update fun f => { f with mailbox := rest }).handle m.now message) ∧
      ∀ x ∈ xs, ∃ begun, Event.begun m.form.history <:+ begun ∧
        begun <:+ Event.begun b.form.history ∧ x.Coheres c.disableLoader begun) ∧
    ∃ begun, begun <:+ Event.begun m.form.history ∧
      m.form.published.Coheres c.disableLoader begun := by
  have coherent := course.coherent
  refine ⟨fun alive => ⟨?_, ?_, ?_⟩, ?_, fun b done => ?_, ?_⟩
  · exact (coherent.living alive).state
  · intro waiting
    have behind := (orderly course alive).behind waiting
    simpa [Form.coordinator] using behind
  · exact (coherent.living alive).changed
  · exact coherent.told_coheres
  · exact Moment.handle_coherent done (one_flight course) coherent
  · exact coherent.published_coheres

/-- A submission is in flight, and another one is put off. -/
theorem snapshots_cohere_put_off :
    ∃ log m, Course (.opening { FormConfig.sample ⟨false, none⟩ .emptyObject with
        observer := some .steady } 0 .new) log m ∧
      Event.begun m.form.history = [1] ∧ m.form.deferred.isSome = true ∧
      m.form.pending.isSome = true ∧ m.form.currentSnapshot.Coheres false [1] := by
  obtain ⟨log, m, course, -, passed⟩ := Moment.course_of_test
    (.opening { FormConfig.sample ⟨false, none⟩ .emptyObject with observer := some .steady } 0 .new)
    [.ask 0 .submit, .handle, .ask 1 .submit, .handle]
    (fun _ m => m.form.alive && m.form.deferred.isSome &&
      decide (Event.begun m.form.history = [1]))
    (by decide +kernel)
  simp only [Bool.and_eq_true, decide_eq_true_eq] at passed
  obtain ⟨⟨alive, waiting⟩, begun⟩ := passed
  obtain ⟨coheres, behind, -⟩ := (snapshots_cohere course).1 alive
  rw [begun] at coheres
  exact ⟨log, m, course, begun, waiting, behind waiting, coheres⟩

end LiveForm
