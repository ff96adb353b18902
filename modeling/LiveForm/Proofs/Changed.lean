import LiveForm.Proofs.Flight

/-!
# What a form keeps in mind of its edits

While a submission is in flight a form keeps in mind which paths are edited, so that it can put
these edits onto the values that come back.

* `Form.changedAfter` tells what a message makes of the paths;
* `Scene.handle_changed`: handling a message does that and no more;
* `Coordinator.Handles.begins`: a submission begins only where none is in flight, or with the end of
  the one that is.
-/

set_option autoImplicit false

namespace LiveForm

/-- The paths in mind once a path has been edited. -/
def Form.changedWith (f : Form) (path : FieldPath) : List FieldPath :=
  if f.pending.isSome && !f.changedDuringSubmit.contains path then f.changedDuringSubmit ++ [path]
  else f.changedDuringSubmit

/-- The paths in mind after a message. -/
def Form.changedAfter (f : Form) : Message → List FieldPath
  | .fieldChanged path _ => f.changedWith path
  | .ask _ (.setValue path _ dirty) =>
    if dirty.getD f.setup.autoSubmit then f.changedWith path else f.changedDuringSubmit
  | .ask _ (.reset _) => []
  | .settled cycle _ => if f.pending.any fun p => p.cycle = cycle then [] else f.changedDuringSubmit
  | _ => f.changedDuringSubmit

/-- These paths are in mind after a turn, if the form goes on. -/
def Turn.Minds (t : Turn) (changed : List FieldPath) : Prop :=
  ∀ s, t = .goesOn s → s.form.changedDuringSubmit = changed

namespace Turn.Minds

variable {t : Turn} {c c' : List FieldPath}

theorem of_scene (h : t.scene.form.changedDuringSubmit = c) : t.Minds c := by
  rintro s rfl
  exact h

theorem andThen {act : Scene → Turn} (h : t.Minds c)
    (next : ∀ s, s.form.changedDuringSubmit = c → (act s).Minds c') : (t.andThen act).Minds c' := by
  cases t with
  | goesOn s => exact next s (h s rfl)
  | falls =>
    intro s turn
    cases turn

end Turn.Minds

namespace Scene

variable (s : Scene) (now : Nat)

/-! ## Acts -/

theorem publish_minds (phase : FormPhase) : (s.publish phase).Minds s.form.changedDuringSubmit := by
  refine .of_scene ?_
  unfold publish observe
  dsimp only
  split
  · rfl
  · split
    · rfl
    · split <;> rfl

theorem publishCurrent_minds : s.publishCurrent.Minds s.form.changedDuringSubmit :=
  s.publish_minds _

theorem notify_minds (key : MessageKey) (detail : String) :
    (s.notify key detail).Minds s.form.changedDuringSubmit := by
  refine .of_scene ?_
  unfold notify
  dsimp only
  split <;> rfl

theorem reportInvalid_minds (errors : FieldErrors) :
    (s.reportInvalid errors).Minds s.form.changedDuringSubmit := by
  refine .of_scene ?_
  unfold reportInvalid
  split
  · rfl
  · dsimp only
    split <;> rfl

theorem putStore_minds (store : Option Store) :
    (s.putStore store).Minds s.form.changedDuringSubmit := by
  cases store <;> exact .of_scene rfl

theorem answerAll_changed (tickets : List Ticket) (reply : Reply) :
    (s.answerAll tickets reply).form.changedDuringSubmit = s.form.changedDuringSubmit := by
  rw [answerAll_form]

theorem runHook_changed (path : FieldPath) (value : Json) :
    (s.runHook path value).form.changedWith path = s.form.changedWith path := by
  unfold runHook
  split <;> rfl

theorem noteChanged_changed (path : FieldPath) :
    (s.noteChanged path).form.changedDuringSubmit = s.form.changedWith path := by
  unfold noteChanged update Form.changedWith
  dsimp only
  split <;> rfl

theorem requestSubmit_changed :
    (s.requestSubmit now).form.changedDuringSubmit = s.form.changedDuringSubmit := by
  unfold requestSubmit update
  dsimp only
  split
  · unfold Form.post
    split <;> rfl
  · rfl

theorem defer_changed (trigger : Trigger) (waiters : List Ticket) :
    (s.defer trigger waiters).form.changedDuringSubmit = s.form.changedDuringSubmit := by
  unfold defer update
  dsimp only
  split <;> rfl

theorem scheduleLoaderHide_changed :
    (s.scheduleLoaderHide now).form.changedDuringSubmit = s.form.changedDuringSubmit := by
  unfold scheduleLoaderHide update
  dsimp only
  split <;> rfl

theorem startSubmission_minds (trigger : Trigger) (waiters : List Ticket) :
    (s.startSubmission trigger waiters).Minds s.form.changedDuringSubmit := by
  unfold startSubmission
  dsimp only
  split
  · rw [beginCycle_eq]
    exact (publish_minds _ _).andThen fun s' kept => .of_scene kept
  · refine (reportInvalid_minds _ _).andThen fun s' kept => ?_
    refine Turn.Minds.andThen (publish_minds _ _) fun s'' kept' => ?_
    rw [answerAll_changed, kept] at kept'
    exact kept' ▸ s''.publishCurrent_minds

/-! ## Messages -/

theorem handleFieldChanged_minds (path : FieldPath) (value : Json) :
    (s.handleFieldChanged now path value).Minds (s.form.changedWith path) := by
  unfold handleFieldChanged
  intro s' turn
  obtain ⟨s₁, put, turn⟩ := Turn.andThen_eq_goesOn turn
  have noted : (s₁.noteChanged path).form.changedDuringSubmit = s.form.changedWith path := by
    rw [noteChanged_changed, ← runHook_changed s path value]
    cases written : (s.runHook path value).form.store.set? path value true with
    | none =>
      rw [written] at put
      cases put
    | some store =>
      rw [written] at put
      cases put
      rfl
  refine (publishCurrent_minds _ s' turn).trans ?_
  split
  · rw [requestSubmit_changed, noted]
  · exact noted

theorem handleSetValue_minds (path : FieldPath) (value : Json) (dirty : Option Bool) :
    (s.handleSetValue now path value dirty).Minds
      (if dirty.getD s.form.setup.autoSubmit then s.form.changedWith path
        else s.form.changedDuringSubmit) := by
  have noted : (if dirty.getD s.form.setup.autoSubmit then s.noteChanged path
      else s).form.changedDuringSubmit =
        if dirty.getD s.form.setup.autoSubmit then s.form.changedWith path
        else s.form.changedDuringSubmit := by
    split
    · exact noteChanged_changed _ _
    · rfl
  unfold handleSetValue
  dsimp only
  rw [← noted]
  refine (putStore_minds _ _).andThen fun s' kept => ?_
  rw [← kept]
  split
  · exact requestSubmit_changed s' now ▸ publishCurrent_minds _
  · exact publishCurrent_minds _

theorem acknowledge_minds (p : Pending) (changed : List FieldPath) :
    (s.acknowledge p changed).Minds s.form.changedDuringSubmit := by
  unfold acknowledge
  exact (putStore_minds _ _).andThen fun s' kept =>
    .of_scene ((answerAll_changed _ _ _).trans kept)

theorem reject_minds (p : Pending) (e : SubmitError) :
    (s.reject p e).Minds s.form.changedDuringSubmit := by
  unfold reject
  exact (notify_minds _ _ _).andThen fun s' kept =>
    .of_scene ((answerAll_changed _ _ _).trans kept)

theorem handleSettled_minds (cycle : Nat) (failure : Option SubmitError) :
    (s.handleSettled now cycle failure).Minds (s.form.changedAfter (.settled cycle failure)) := by
  unfold handleSettled
  split
  · rename_i free
    exact .of_scene (by simp [Form.changedAfter, free, Turn.scene])
  · rename_i p flight
    split
    · rename_i other
      exact .of_scene (by simp [Form.changedAfter, flight, other, Turn.scene])
    · rename_i same
      have dropped : s.form.changedAfter (.settled cycle failure) = [] := by
        simp [Form.changedAfter, flight, Decidable.not_not.mp same]
      rw [dropped]
      refine Turn.Minds.andThen (c := []) ?_ fun s' kept => ?_
      · cases failure with
        | none => exact acknowledge_minds _ p _
        | some e => exact reject_minds _ p e
      have cleared : (s'.releaseToken.scheduleLoaderHide now).form.changedDuringSubmit = [] := by
        rw [scheduleLoaderHide_changed, releaseToken_form, kept]
      refine (publish_minds _ _).andThen fun s'' kept' => ?_
      rw [cleared] at kept'
      split
      · exact kept' ▸ startSubmission_minds _ _ _
      · exact kept' ▸ publishCurrent_minds _

/-- What a message makes of the paths in mind, if the form goes on. -/
theorem handle_changed (m : Message) : (s.handle now m).Minds (s.form.changedAfter m) := by
  cases m with
  | fieldChanged path value => exact s.handleFieldChanged_minds now path value
  | settled cycle failure => exact s.handleSettled_minds now cycle failure
  | debounceElapsed generation =>
    show (s.handleDebounceElapsed generation).Minds s.form.changedDuringSubmit
    unfold handleDebounceElapsed
    split
    · split
      · exact defer_changed s.cancelDebounce .auto [] ▸ publishCurrent_minds _
      · exact startSubmission_minds s.cancelDebounce _ _
    · exact .of_scene rfl
  | loaded outcome =>
    show (s.handleLoaded outcome).Minds s.form.changedDuringSubmit
    unfold handleLoaded
    refine Turn.Minds.andThen (c := s.form.changedDuringSubmit) ?_ fun s' kept =>
      kept ▸ publishCurrent_minds _
    cases outcome with
    | ok values => exact (putStore_minds _ _).andThen fun s' kept => .of_scene kept
    | error message => exact notify_minds _ _ _
  | hideLoader generation =>
    show (s.handleHideLoader generation).Minds s.form.changedDuringSubmit
    unfold handleHideLoader
    split
    · exact publishCurrent_minds _
    · exact .of_scene rfl
  | ask ticket request =>
    cases request with
    | setValue path value dirty =>
      exact (s.handleSetValue_minds now path value dirty).andThen fun s' kept => .of_scene kept
    | reset values => exact (publishCurrent_minds _).andThen fun s' kept => .of_scene kept
    | submit =>
      show (s.handleSubmit ticket).Minds s.form.changedDuringSubmit
      unfold handleSubmit
      split
      · exact .of_scene (defer_changed _ _ _)
      · exact startSubmission_minds s.cancelDebounce _ _
    | register path field =>
      show (s.handleRequest now ticket (.register path field)).Minds s.form.changedDuringSubmit
      unfold handleRequest
      dsimp only
      split <;> exact .of_scene rfl
    | _ => exact .of_scene rfl

end Scene

/-! ## Beginnings -/

/-- A submission begins where none is in flight, or with the end of the one that is. -/
theorem Coordinator.Handles.begins {now : Nat} {m : Message} {c c' : Coordinator}
    (h : c.Handles now m c') (more : c'.cycles = c.cycles + 1) :
    c.pending = none ∨ ∃ p failure, c.pending = some p ∧ m = .settled p.cycle failure := by
  cases h with
  | submitNow free | elapsedNow _ free => exact .inl free
  | settledLast flight | settledNext flight => exact .inr ⟨_, _, flight, rfl⟩
  | changed =>
    rw [request_cycles] at more
    omega
  | written =>
    change (c.request now).cycles = _ at more
    rw [request_cycles] at more
    omega
  | aside | told | reset | submitLater | stale | elapsedLater | unknown =>
    exact absurd more (Nat.ne_of_lt (Nat.lt_succ_self c.cycles))

theorem Scene.begins_free {s s' : Scene} {now : Nat} {m : Message}
    (turn : s.handle now m = .goesOn s') (more : s'.form.cycles = s.form.cycles + 1) :
    s.form.pendingAfter m = none := by
  rcases ((s.handle_ends now m).goes s' turn).begins more with free | ⟨p, failure, flight, rfl⟩
  · have free : s.form.pending = none := Option.map_eq_none_iff.mp free
    cases m with
    | ask ticket request => cases request <;> simp [Form.pendingAfter, free]
    | _ => simp [Form.pendingAfter, free]
  · obtain ⟨p, flies, rfl⟩ := Option.map_eq_some_iff.mp flight
    have flies : s.form.pending = some p := flies
    simp [Form.pendingAfter, flies, Option.filter, Pending.regardless]

end LiveForm
