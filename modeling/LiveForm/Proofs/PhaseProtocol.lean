import LiveForm.Proofs.Coherence

/-!
# The phases an observer sees

Snapshots are published only when they differ from the last one. No end of a submission and no stop
is lost by that, and the phases come in an order that an observer can rely on.

* `Snapshot.Follows`: which phases may follow each other;
* `Standing.Paced`: at each stage, what has been shown is in that order, and all ends and stops have
  been shown but the one the stage is about;
* `Standing.Paced.move`: every move keeps it;
* `phase_protocol`: so it is on every course on which no callback fails.
-/

set_option autoImplicit false

namespace LiveForm

/-- A submission has succeeded. -/
def Event.isSuccess : Event → Bool
  | .settled _ none => true
  | _ => false

/-- A submission has failed. -/
def Event.isFailure : Event → Bool
  | .settled _ (some _) => true
  | _ => false

/-- Invalid fields have stopped a submission. -/
def Event.isHalt : Event → Bool
  | .halted _ _ => true
  | _ => false

theorem Event.isMark_of_end {e : Event}
    (h : e.isSuccess = true ∨ e.isFailure = true ∨ e.isHalt = true) : e.isMark = true := by
  cases e <;> simp [isSuccess, isFailure, isHalt, isMark] at h ⊢

/-- Success is shown right after the submission in flight, which goes on until its end is shown. -/
structure Snapshot.Follows (newer older : Snapshot) : Prop where
  success : newer.phase = .settledOk → older.phase = .submitting
  flight : older.phase = .submitting → newer.phase ≠ .idle ∧ newer.phase ≠ .scheduled

namespace Stage

/-- A success that is still to be shown. -/
def owesOk : Stage → Nat
  | .landed none | .judged none | .cleared none => 1
  | _ => 0

/-- A failure or a stop that is still to be shown. -/
def owesError : Stage → Nat
  | .landed (some _) | .judged (some _) | .cleared (some _) | .halted => 1
  | _ => 0

/-- What has been published last, at each stage. Errors tell a stop from the failure before it. -/
def Paces (st : Standing) : Stage → Prop
  | .resting => Rests st.flying st.published.phase ∧
      ∀ e, st.marks.head? = some e → e.isSuccess = false
  | .begun => st.published.phase ≠ .submitting
  | .halted => st.errors ≠ [] ∧ st.published.phase ≠ .submitting ∧
      (st.published.phase = .settledError → st.published.errors = [])
  | .stopped => st.published.phase = .settledError
  | .landed failure => st.published.phase = .submitting ∧
      ∃ cycle, st.marks.head? = some (.settled cycle failure)
  | .judged _ | .cleared _ => st.published.phase = .submitting
  | .shown => st.published.phase = .settledOk ∨
      st.published.phase = .settledError ∧ st.published.errors = []

end Stage

/-- The form has an observer, and what that was called with is in order. -/
structure Standing.Paced (stage : Stage) (st : Standing) : Prop where
  watched : st.watched = true
  head : (st.shown ++ [Snapshot.blank]).head? = some st.published
  chain : (st.shown ++ [Snapshot.blank]).IsChain Snapshot.Follows
  oks : st.shown.countP (·.phase = .settledOk) + stage.owesOk = st.marks.countP Event.isSuccess
  errors : st.shown.countP (·.phase = .settledError) + stage.owesError =
    st.marks.countP Event.isFailure + st.marks.countP Event.isHalt
  paces : stage.Paces st

namespace Standing

variable {disabled : Bool} {stage stage' : Stage} {st : Standing} {phase : FormPhase} {x : Snapshot}

theorem publish_new (new : x ≠ st.published) (watched : st.watched = true) :
    st.publish x = { st with published := x, marks := .published x :: st.marks } := by
  rw [publish, if_neg new, if_pos watched]

/-- Something new is shown, and settles what the stage owes. -/
theorem Paced.news (h : st.Paced stage) (new : x ≠ st.published) (follows : x.Follows st.published)
    (oks : (if x.phase = .settledOk then 1 else 0) + stage'.owesOk = stage.owesOk)
    (errors : (if x.phase = .settledError then 1 else 0) + stage'.owesError = stage.owesError)
    (paces : stage'.Paces { st with published := x, marks := .published x :: st.marks }) :
    (st.publish x).Paced stage' := by
  rw [publish_new new h.watched]
  have shown : ({ st with published := x, marks := .published x :: st.marks } : Standing).shown =
      x :: st.shown := rfl
  constructor
  · exact h.watched
  · rw [shown]
    rfl
  · rw [shown, List.cons_append, List.isChain_cons]
    refine ⟨fun y first => ?_, h.chain⟩
    rw [h.head] at first
    cases first
    exact follows
  · have before := h.oks
    simp only [shown, List.countP_cons, decide_eq_true_eq, Event.isSuccess] at before ⊢
    simp only [Bool.false_eq_true, if_false]
    omega
  · have before := h.errors
    simp only [shown, List.countP_cons, decide_eq_true_eq, Event.isFailure, Event.isHalt] at before ⊢
    simp only [Bool.false_eq_true, if_false]
    omega
  · exact paces

/-- A submission begins, ends or is stopped, and that is not shown yet. -/
theorem Paced.owes {st' : Standing} {e : Event} (h : st.Paced stage)
    (marks : st'.marks = e :: st.marks) (unseen : e.published? = none)
    (same : st'.watched = st.watched ∧ st'.published = st.published)
    (oks : stage'.owesOk = stage.owesOk + if e.isSuccess then 1 else 0)
    (errors : stage'.owesError =
      stage.owesError + (if e.isFailure then 1 else 0) + if e.isHalt then 1 else 0)
    (paces : stage'.Paces st') : st'.Paced stage' := by
  have shown : st'.shown = st.shown := by
    rw [Standing.shown, marks, List.filterMap_cons_none unseen, Standing.shown]
  constructor
  · rw [same.1]
    exact h.watched
  · rw [shown, same.2]
    exact h.head
  · rw [shown]
    exact h.chain
  · have before := h.oks
    rw [shown, marks, List.countP_cons, oks]
    omega
  · have before := h.errors
    rw [shown, marks, List.countP_cons, List.countP_cons, errors]
    omega
  · exact paces

/-- Where the next submission may begin or be stopped, all is shown, and nothing that was shown says
so already. -/
theorem Paced.ready (h : st.Paced stage) (coherent : st.Coherent disabled stage)
    (free : stage.Free st) :
    (stage.owesOk = 0 ∧ stage.owesError = 0) ∧ st.published.phase ≠ .submitting ∧
      (st.published.phase = .settledError → st.published.errors = []) := by
  have paces := h.paces
  cases stage with
  | resting =>
    refine ⟨⟨rfl, rfl⟩, fun busy => ?_, fun error => absurd error paces.1.notError⟩
    have flying := paces.1.submitting.mp busy
    rw [coherent.free free] at flying
    cases flying
  | shown =>
    refine ⟨⟨rfl, rfl⟩, ?_⟩
    rcases paces with ok | ⟨error, none⟩
    · simp [ok]
    · simp [error, none]
  | _ => cases free

theorem Paced.begin (h : st.Paced stage) (coherent : st.Coherent disabled stage)
    (free : stage.Free st) (trigger : Trigger) : (st.begin trigger).Paced .begun := by
  obtain ⟨⟨ok, error⟩, ready, -⟩ := h.ready coherent free
  refine h.owes rfl rfl ⟨rfl, rfl⟩ ?_ ?_ ready
  · rw [ok]
    rfl
  · rw [error]
    rfl

theorem Paced.halt (h : st.Paced stage) (coherent : st.Coherent disabled stage)
    (free : stage.Free st) (trigger : Trigger) {errors : FieldErrors} (invalid : errors ≠ []) :
    (st.halt trigger errors).Paced .halted := by
  obtain ⟨⟨ok, error⟩, ready, apart⟩ := h.ready coherent free
  refine h.owes rfl rfl ⟨rfl, rfl⟩ ?_ ?_ ⟨invalid, ready, apart⟩
  · rw [ok]
    rfl
  · rw [error]
    rfl

theorem Paced.land (h : st.Paced .resting) (busy : st.flying = true) (cycle : Nat)
    (failure : Option SubmitError) : (st.land cycle failure).Paced (.landed failure) := by
  have flight : st.published.phase = .submitting := h.paces.1.submitting.mpr busy
  cases failure with
  | none => exact h.owes rfl rfl ⟨rfl, rfl⟩ rfl rfl ⟨flight, cycle, rfl⟩
  | some e => exact h.owes rfl rfl ⟨rfl, rfl⟩ rfl rfl ⟨flight, cycle, rfl⟩

/-- The state is shown as it is. -/
theorem Paced.rest (h : st.Paced stage) (rests : Stage.Rests st.flying phase)
    (seen : st.Shows phase x) (new : x ≠ st.published) (free : stage.owesOk = 0 ∧ stage.owesError = 0)
    (flight : st.published.phase = .submitting → st.flying = true) :
    (st.publish x).Paced .resting := by
  have ok : x.phase ≠ .settledOk := seen.phase ▸ rests.notOk
  have error : x.phase ≠ .settledError := seen.phase ▸ rests.notError
  apply h.news new
  · constructor
    · intro settled
      exact absurd settled ok
    · intro busy
      have phase := rests.submitting.mpr (flight busy)
      simp [seen.phase, phase]
  · rw [if_neg ok, free.1]
    rfl
  · rw [if_neg error, free.2]
    rfl
  · refine ⟨seen.phase ▸ rests, ?_⟩
    rintro e ⟨⟩
    rfl

/-- After a settled phase the state always says something new. -/
theorem Paced.over (h : st.Paced stage) (rests : Stage.Rests st.flying phase)
    (seen : st.Shows phase x)
    (settled : st.published.phase = .settledOk ∨ st.published.phase = .settledError)
    (free : stage.owesOk = 0 ∧ stage.owesError = 0) : (st.publish x).Paced .resting := by
  have new : x ≠ st.published := by
    rintro rfl
    rw [seen.phase] at settled
    exact settled.elim rests.notOk rests.notError
  apply h.rest rests seen new free
  intro busy
  simp [busy] at settled

theorem Paced.shows (h : st.Paced stage) (coherent : st.Coherent disabled stage)
    (next : stage.Next st.flying phase stage') (seen : st.Shows phase x) :
    (st.publish x).Paced stage' := by
  have paces := h.paces
  have news (other : phase ≠ st.published.phase) : x ≠ st.published := by
    rintro rfl
    exact other seen.phase.symm
  cases next with
  | begun =>
    have flying : st.flying = true := coherent.fits
    apply h.news (news paces.symm)
    · constructor
      · simp [seen.phase]
      · simp [seen.phase]
    · simp [seen.phase, Stage.owesOk]
    · simp [seen.phase, Stage.owesError]
    · refine ⟨?_, by rintro e ⟨⟩; rfl⟩
      constructor <;> simp [seen.phase, flying]
  | halted =>
    obtain ⟨invalid, ready, apart⟩ := paces
    have new : x ≠ st.published := by
      rintro rfl
      have none := apart seen.phase
      rw [seen.errors] at none
      exact invalid none
    apply h.news new
    · constructor
      · simp [seen.phase]
      · intro busy
        exact absurd busy ready
    · simp [seen.phase, Stage.owesOk]
    · simp [seen.phase, Stage.owesError]
    · exact seen.phase
  | succeeded =>
    have flight : st.published.phase = .submitting := paces
    apply h.news (news (by simp [flight]))
    · constructor
      · intro _
        exact flight
      · simp [seen.phase]
    · simp [seen.phase, Stage.owesOk]
    · simp [seen.phase, Stage.owesError]
    · exact .inl seen.phase
  | failed =>
    have flight : st.published.phase = .submitting := paces
    apply h.news (news (by simp [flight]))
    · constructor
      · simp [seen.phase]
      · simp [seen.phase]
    · simp [seen.phase, Stage.owesOk]
    · simp [seen.phase, Stage.owesError]
    · exact .inr ⟨seen.phase, seen.errors.trans coherent.fits.2.2⟩
  | resting rests =>
    by_cases same : x = st.published
    · rw [Standing.publish, if_pos same]
      exact h
    · exact h.rest rests seen same ⟨rfl, rfl⟩ paces.1.submitting.mp
  | stopped rests => exact h.over rests seen (.inr paces) ⟨rfl, rfl⟩
  | shown rests => exact h.over rests seen (paces.imp_right And.left) ⟨rfl, rfl⟩

theorem Paced.move {a b : Stage × Standing} (move : Move a b) (coherent : a.2.Coherent disabled a.1)
    (h : a.2.Paced a.1) : b.2.Paced b.1 := by
  cases move with
  | notes | resets | hears | hides => exact { h with }
  | @writes stage =>
    have paces := h.paces
    exact { h with paces := by cases stage <;> exact paces }
  | begins free => exact h.begin coherent free _
  | halts free invalid => exact h.halt coherent free _ invalid
  | lands busy => exact h.land busy _ _
  | @judges _ failure => cases failure <;> exact { h with paces := h.paces.1 }
  | @clears _ failure => cases failure <;> exact { h with }
  | shows next seen => exact h.shows coherent next seen

theorem Paced.drift {st' : Standing} (drifts : st.Drifts true st') (h : st.Paced .resting) :
    st'.Paced .resting := by
  cases drifts <;> exact { h with }

/-- Where a form can fall though no callback fails, all is shown but a success whose values could
not be taken over, and a settled phase is not what was shown last. -/
theorem Paced.broken (h : st.Paced stage) (breaks : stage.breaks = true) :
    (stage.owesOk = if st.marks.head?.any Event.isSuccess then 1 else 0) ∧ stage.owesError = 0 ∧
      st.published.phase ≠ .settledOk ∧ st.published.phase ≠ .settledError := by
  have paces := h.paces
  match stage, breaks with
  | .resting, _ =>
    obtain ⟨rests, seen⟩ := paces
    have shown : st.marks.head?.any Event.isSuccess = false := by
      cases head : st.marks.head? with
      | none => rfl
      | some e => exact seen e head
    rw [shown]
    exact ⟨rfl, rfl, rests.notOk, rests.notError⟩
  | .landed none, _ =>
    obtain ⟨flight, cycle, head⟩ := paces
    simp [head, flight, Stage.owesOk, Stage.owesError, Event.isSuccess]

end Standing

/-! ## Along a course -/

theorem Event.countP_marks {p : Event → Bool} (among : ∀ e, p e = true → e.isMark = true)
    (history : List Event) : (history.filter Event.isMark).countP p = history.countP p := by
  rw [List.countP_filter]
  apply List.countP_congr
  intro e _
  simp only [Bool.and_eq_true, and_iff_left_iff_imp]
  exact among e

/-- The last submission has succeeded, but the form has ended while it took over the values: a write
has asked for an impossible list. -/
def Form.brokeOff (f : Form) : Bool := (f.history.filter Event.isMark).head?.any Event.isSuccess

section

variable {c : FormConfig} {now : Nat} {guard : UnloadGuard} {m : Moment} {log : Log}

theorem Course.paced (course : Course (.opening c now guard) log m)
    (observed : c.observer.isSome = true) :
    m.form.Upholds fun stage st => st.Coherent c.disableLoader stage ∧ st.Paced stage := by
  have first : (Form.make c now).standing.Paced .resting := by
    constructor
    · exact observed
    · rfl
    · exact .singleton _
    · rfl
    · rfl
    · constructor
      · constructor <;> simp [Form.standing, Form.make, Snapshot.blank]
      · rintro e ⟨⟩
  exact course.upholds
    (P := fun stage st => st.Coherent c.disableLoader stage ∧ st.Paced stage)
    (fun move before => ⟨before.1.move move, before.2.move move before.1⟩)
    (fun drifts before => ⟨before.1.drift drifts, before.2.drift drifts⟩)
    ⟨Form.make_coherent c now, first⟩

/-- If no callback has failed, the form has come to rest or to a write that cannot be done. -/
theorem Course.paced_steady (course : Course (.opening c now guard) log m)
    (observed : c.observer.isSome = true) (steady : m.form.failed = false) :
    ∃ (stage : Stage) (st : Standing), st.Paced stage ∧ stage.breaks = true ∧
      (m.form.alive = true → stage = .resting) ∧ m.form.standing.marks = st.marks ∧
      m.form.observer.isSome = true := by
  have upholds := course.paced observed
  cases alive : m.form.alive with
  | true =>
    have paced := (upholds.living alive).2
    exact ⟨.resting, m.form.standing, paced, rfl, fun _ => rfl, rfl, paced.watched⟩
  | false =>
    obtain ⟨last, st, ⟨-, paced⟩, same, reason⟩ := upholds.fallen alive
    have marks : m.form.standing.marks = st.marks := by
      rw [same]
      rfl
    have watched : m.form.standing.watched = true := by
      rw [same]
      exact paced.watched
    have breaks : last.breaks = true := by
      rcases reason with failed | breaks
      · rw [steady] at failed
        cases failed
      · exact breaks
    exact ⟨last, st, paced, breaks, nofun, marks, watched⟩

theorem Form.shown_of_marks {f : Form} {st : Standing} (marks : f.standing.marks = st.marks) :
    f.shown = st.shown := by
  rw [← f.standing_shown, Standing.shown, Standing.shown, marks]

/-- The snapshot that was shown last is not of a settled phase. -/
theorem Course.rests_shown (course : Course (.opening c now guard) log m)
    (observed : c.observer.isSome = true) (steady : m.form.failed = false) {x : Snapshot}
    (last : m.form.shown.head? = some x) : x.phase ≠ .settledOk ∧ x.phase ≠ .settledError := by
  obtain ⟨stage, st, paced, breaks, -, marks, -⟩ := course.paced_steady observed steady
  obtain ⟨-, -, unsettled⟩ := paced.broken breaks
  have head := paced.head
  rw [← Form.shown_of_marks marks, List.head?_append, last] at head
  cases head
  exact unsettled

/-- What a deed shows comes after all that was shown before. -/
theorem Moment.perform?_shown {a b : Moment} {d : Deed} (h : a.perform? d = some b)
    (watched : a.form.observer.isSome = true) : ∃ xs, b.form.shown = xs ++ a.form.shown := by
  by_cases handling : d = .handle
  · subst handling
    obtain ⟨_, _, xs, -, -, display, -⟩ := perform?_handle_display h
    have shown := congrArg Display.shown display
    rw [Display.foldl_show_shown _ _ watched] at shown
    exact ⟨xs.reverse, shown⟩
  · exact ⟨[], congrArg Display.shown (perform?_unshown h handling)⟩

/-- A settled phase is not the last that a deed shows. -/
theorem Course.settled_followed (course : Course (.opening c now guard) log m)
    (observed : c.observer.isSome = true) {d : Deed} {b : Moment} (done : m.perform? d = some b)
    (steady : b.form.failed = false) (watched : m.form.observer.isSome = true) :
    ∃ xs, b.form.shown = xs ++ m.form.shown ∧ ∀ newer x older, xs = newer ++ x :: older →
      x.phase = .settledOk ∨ x.phase = .settledError → newer ≠ [] := by
  obtain ⟨xs, whole⟩ := Moment.perform?_shown done watched
  refine ⟨xs, whole, ?_⟩
  rintro newer x older rfl settled rfl
  have last : b.form.shown.head? = some x := by
    rw [whole]
    rfl
  obtain ⟨notOk, notError⟩ := (course.next done).rests_shown observed steady last
  exact settled.elim notOk notError

/-- The ends that have been shown, and those that are owed, are all there are. -/
theorem Standing.Paced.counts {stage : Stage} {st : Standing} {f : Form} (h : st.Paced stage)
    (marks : f.standing.marks = st.marks) :
    f.shown.countP (·.phase = .settledOk) + stage.owesOk = f.history.countP Event.isSuccess ∧
      f.shown.countP (·.phase = .settledError) + stage.owesError =
        f.history.countP Event.isFailure + f.history.countP Event.isHalt := by
  have counts {p : Event → Bool} (among : ∀ e, p e = true → e.isMark = true) :
      st.marks.countP p = f.history.countP p := by
    rw [← marks]
    exact Event.countP_marks among _
  have oks := h.oks
  have errors := h.errors
  rw [← Form.shown_of_marks marks, counts fun _ h => Event.isMark_of_end (.inl h)] at oks
  rw [← Form.shown_of_marks marks, counts fun _ h => Event.isMark_of_end (.inr (.inl h)),
    counts fun _ h => Event.isMark_of_end (.inr (.inr h))] at errors
  exact ⟨oks, errors⟩

/-- On a course on which no callback of the host has failed, the observer sees the phases in order:
a success directly after a submission under way, and never a form at rest directly after that. A
settled phase is never the last that a message shows. Every success is shown, but one that the form
did not survive since its values could not be taken over, and so is every failure, and every stop by
invalid fields. -/
theorem phase_protocol (course : Course (.opening c now guard) log m)
    (observed : c.observer.isSome = true) (steady : m.form.failed = false) :
    (m.form.shown ++ [Snapshot.blank]).IsChain Snapshot.Follows ∧
    (∀ d b, m.perform? d = some b → b.form.failed = false → ∃ xs,
      b.form.shown = xs ++ m.form.shown ∧ ∀ newer x older, xs = newer ++ x :: older →
        x.phase = .settledOk ∨ x.phase = .settledError → newer ≠ []) ∧
    (m.form.alive = true → m.form.brokeOff = false) ∧
    m.form.shown.countP (·.phase = .settledOk) + (if m.form.brokeOff then 1 else 0) =
      m.form.history.countP Event.isSuccess ∧
    m.form.shown.countP (·.phase = .settledError) =
      m.form.history.countP Event.isFailure + m.form.history.countP Event.isHalt := by
  obtain ⟨stage, st, paced, breaks, rests, marks, watched⟩ := course.paced_steady observed steady
  obtain ⟨owesOk, owesError, -⟩ := paced.broken breaks
  obtain ⟨oks, errors⟩ := paced.counts marks
  have brokeOff : stage.owesOk = if m.form.brokeOff then 1 else 0 := by
    rw [owesOk, ← marks]
    rfl
  rw [brokeOff] at oks
  rw [owesError] at errors
  refine ⟨?_, ?_, ?_, oks, errors⟩
  · rw [Form.shown_of_marks marks]
    exact paced.chain
  · intro d b done steady'
    exact course.settled_followed observed done steady' watched
  · intro alive
    rw [rests alive] at brokeOff
    by_contra broke
    rw [if_pos (by simpa using broke)] at brokeOff
    cases brokeOff

/-- A submission fails, and invalid fields stop the one put off behind it. Both are shown. -/
theorem phase_protocol_failed_twice :
    ∃ log m, Course (.opening { FormConfig.sample ⟨false, none⟩ .emptyObject with
        handler := some [⟨5, .fails (.rejected "busy")⟩]
        observer := some .steady } 0 .new) log m ∧
      m.form.failed = false ∧
      m.form.shown.map Snapshot.phase = [.idle, .settledError, .settledError, .submitting] ∧
      m.form.shown.IsChain Snapshot.Follows ∧
      m.form.history.countP Event.isFailure + m.form.history.countP Event.isHalt = 2 := by
  obtain ⟨log, m, course, -, passed⟩ := Moment.course_of_test
    (.opening { FormConfig.sample ⟨false, none⟩ .emptyObject with
      handler := some [⟨5, .fails (.rejected "busy")⟩]
      observer := some .steady } 0 .new)
    [.ask 0 .submit, .handle, .startCall 0 0, .ask 1 (.register ⟨["x"]⟩ ⟨none, [.required], none⟩),
      .handle, .ask 2 .submit, .handle, .pass 5, .endCall 0 0, .finishRun 0, .handle]
    (fun _ m => !m.form.failed && decide (m.form.shown.map Snapshot.phase =
      [.idle, .settledError, .settledError, .submitting]))
    (by decide +kernel)
  simp only [Bool.and_eq_true, Bool.not_eq_true', decide_eq_true_eq] at passed
  obtain ⟨steady, phases⟩ := passed
  obtain ⟨chain, -, -, -, errors⟩ := phase_protocol course rfl steady
  refine ⟨log, m, course, steady, phases, chain.left_of_append, ?_⟩
  rw [← errors]
  have counted : (m.form.shown.map Snapshot.phase).countP (· = .settledError) = 2 := by
    rw [phases]
    rfl
  rw [List.countP_map] at counted
  exact counted

end

end LiveForm
