import LiveForm.Proofs.Flight

/-!
# What small acts leave alone

Much of what a form does has to do with its values, with what it tells its host, and with the host's
callbacks. What does not depend on these stays as it was.

* `Form.Remote`: reads nothing of all that;
* `Scene.publish_remote` and its like: what is read in such a way an act leaves alone, however it
  ends.
-/

set_option autoImplicit false

namespace LiveForm

/-- Reads nothing of the values, of what was told to the host, and of the callbacks. -/
def Form.Remote {α : Type} (read : Form → α) : Prop :=
  ∀ (f : Form) {onInvalid observer notifier store token changedDuringSubmit errors
    isSubmitSuccessful published history},
    read { f with onInvalid, observer, notifier, store, token, changedDuringSubmit, errors,
                  isSubmitSuccessful, published, history } = read f

/-- What is read is the same when a turn has ended, whichever way it ends. -/
def Turn.Spares {α : Type} (read : Form → α) (t : Turn) (s : Scene) : Prop :=
  read t.scene.form = read s.form

namespace Turn.Spares

variable {α : Type} {read : Form → α} {t : Turn} {s s' : Scene} {act : Scene → Turn}

theorem andThen (h : t.Spares read s) (next : ∀ s', (act s').Spares read s') :
    (t.andThen act).Spares read s := by
  cases t with
  | goesOn s' => exact (next s').trans h
  | falls => exact h

theorem since (h : t.Spares read s') (same : read s'.form = read s.form) : t.Spares read s :=
  Eq.trans h same

theorem goesOn (h : t.Spares read s) (turn : t = .goesOn s') : read s'.form = read s.form := by
  subst turn
  exact h

end Turn.Spares

namespace Scene

variable {α : Type} {read : Form → α} (remote : Form.Remote read) (s : Scene)

include remote

theorem log_remote (e : Event) : read (s.log e).form = read s.form :=
  remote s.form

theorem observe_remote (shown : Snapshot) : (s.observe shown).Spares read s := by
  unfold observe Turn.Spares
  split
  · rfl
  · dsimp only
    split <;> exact remote s.form

theorem publish_remote (phase : FormPhase) : (s.publish phase).Spares read s := by
  unfold publish
  dsimp only
  split
  · rfl
  · exact (observe_remote remote _ _).since (remote s.form)

theorem publishCurrent_remote : s.publishCurrent.Spares read s := s.publish_remote remote _

theorem notify_remote (key : MessageKey) (detail : String) :
    (s.notify key detail).Spares read s := by
  unfold notify Turn.Spares
  dsimp only
  split <;> exact remote s.form

theorem reportInvalid_remote (errors : FieldErrors) : (s.reportInvalid errors).Spares read s := by
  unfold reportInvalid Turn.Spares
  split
  · rfl
  · dsimp only
    split <;> exact remote s.form

theorem answerAll_remote (tickets : List Ticket) (reply : Reply) :
    read (s.answerAll tickets reply).form = read s.form := by
  rw [answerAll_form]
  exact remote s.form

theorem runHook_remote (path : FieldPath) (value : Json) :
    read (s.runHook path value).form = read s.form := by
  unfold runHook
  split
  · exact log_remote remote s _
  · rfl

theorem putStore_remote (store : Option Store) : (s.putStore store).Spares read s := by
  unfold putStore
  split
  · exact remote s.form
  · rfl

theorem noteChanged_remote (path : FieldPath) : read (s.noteChanged path).form = read s.form := by
  unfold noteChanged update
  dsimp only
  split
  · exact remote s.form
  · rfl

theorem releaseToken_remote : read s.releaseToken.form = read s.form := by
  rw [releaseToken_form]
  exact remote s.form

theorem halt_remote (trigger : Trigger) (waiters : List Ticket) (errors : FieldErrors) :
    (s.halt trigger waiters errors).Spares read s := by
  refine Turn.Spares.andThen ((reportInvalid_remote remote _ _).since ?_) fun s' => ?_
  · exact remote s.form
  · exact Turn.Spares.andThen ((publish_remote remote _ _).since (answerAll_remote remote _ _ _))
      (publishCurrent_remote remote)

theorem acknowledge_remote (p : Pending) (changed : List FieldPath) :
    (s.acknowledge p changed).Spares read s := by
  refine Turn.Spares.andThen (putStore_remote remote _ _) fun s' => ?_
  exact (answerAll_remote remote _ _ _).trans (remote s'.form)

theorem reject_remote (p : Pending) (e : SubmitError) : (s.reject p e).Spares read s := by
  refine Turn.Spares.andThen ((notify_remote remote _ _ _).since ?_) fun s' => ?_
  · exact remote s.form
  · exact answerAll_remote remote s' _ _

end Scene

end LiveForm
