import LiveForm.Proofs.Standing

/-!
# What handling a message does to the standing

One lemma for each act, in the order of `Form/Scene` and `Form/Handling`. `Scene.handle_passes` puts
them together: any message leads from rest to rest, by moves alone, or the form falls on the way.
-/

set_option autoImplicit false

namespace LiveForm

namespace Store

variable {s s' : Store}

theorem set?_written {p : FieldPath} {v : Json} {dirty : Bool} (h : s.set? p v dirty = some s') :
    s.dirty.Written s'.dirty := by
  obtain ⟨values, -, rfl⟩ := Option.map_eq_some_iff.mp h
  cases dirty with
  | true => exact .marked p
  | false => exact .kept

theorem commit?_written {baseline : Json} {edits : List (FieldPath × Json)} (d : DirtyFields)
    (h : commit? baseline edits = some s) : d.Written s.dirty := by
  obtain ⟨merged, -, rfl⟩ := Option.map_eq_some_iff.mp h
  exact .compared _ _

end Store

namespace Scene

variable (s : Scene) (now : Nat)

/-! ## Acts that show and tell -/

theorem observe_standing {x : Snapshot} (new : x ≠ s.form.published) :
    ((s.update fun f => { f with published := x }).observe x).scene.form.standing =
      s.form.standing.publish x := by
  have shown : s.form.standing.publish x = { s.form.standing with
      published := x
      marks := if s.form.observer.isSome then .published x :: s.form.standing.marks
        else s.form.standing.marks } := if_neg new
  rw [shown]
  unfold observe
  split
  · rename_i unwatched
    have unwatched : s.form.observer = none := unwatched
    simp [Turn.scene, update, Form.standing, unwatched]
  · rename_i callback watched
    have watched : s.form.observer = some callback := watched
    dsimp only
    split <;> simp [Turn.scene, update, log, Form.log, Form.standing, watched, Event.filter_published]

theorem observe_fails {s s' : Scene} {x : Snapshot} (h : s.observe x = .falls s') :
    s'.form.failed = true := by
  unfold observe at h
  split at h
  · cases h
  · rename_i callback _
    dsimp only at h
    split at h
    · rename_i fails
      cases h
      simp [log, update, Form.log, Form.failed, Callback.hasFailed_called fails]
    · cases h

theorem publish_passes {stage stage' : Stage} {phase : FormPhase}
    (next : stage.Next s.form.pending.isSome phase stage') :
    (s.publish phase).Passes s (stage, s.form.standing) stage' := by
  have seen := s.form.standing_shows phase
  have move : Standing.Move (stage, s.form.standing)
      (stage', s.form.standing.publish (s.form.snapshot phase)) := .shows next seen
  by_cases same : s.form.snapshot phase = s.form.published
  · have turn : s.publish phase = .goesOn s := if_pos same
    have still : s.form.standing.publish (s.form.snapshot phase) = s.form.standing := if_pos same
    rw [still] at move
    rw [turn]
    exact .goesOn (.single move) rfl
  · have turn : s.publish phase = (s.update fun f =>
        { f with published := s.form.snapshot phase }).observe (s.form.snapshot phase) :=
      if_neg same
    have shown : (s.publish phase).scene.form.standing =
        s.form.standing.publish (s.form.snapshot phase) := by
      rw [turn]
      exact s.observe_standing same
    have path : Standing.Path (stage, s.form.standing)
        (stage', (s.publish phase).scene.form.standing) := shown ▸ .single move
    have dirty : s.form.standing.dirty = (s.publish phase).scene.form.standing.dirty :=
      (congrArg Store.dirty (s.publish_keeps phase).store).symm
    refine ⟨⟨?_, ?_⟩, ?_⟩
    · intro s' eq
      rw [eq] at path
      exact path
    · intro s' eq
      rw [eq] at path
      exact ⟨stage', path, .inl (observe_fails (turn ▸ eq))⟩
    · refine ⟨_, .news same, fun x among => ?_⟩
      rw [List.mem_singleton.mp among]
      exact ⟨stage, s.form.standing, phase, stage', .refl, path.marks, dirty, next, seen⟩

theorem publishCurrent_passes {stage : Stage}
    (next : stage = .resting ∨ stage = .stopped ∨ stage = .shown) :
    s.publishCurrent.Passes s (stage, s.form.standing) .resting := by
  have rests := s.form.phase_rests
  rcases next with rfl | rfl | rfl
  · exact s.publish_passes (.resting rests)
  · exact s.publish_passes (.stopped rests)
  · exact s.publish_passes (.shown rests)

theorem notify_prepares (key : MessageKey) (detail : String) (stage : Stage) :
    (s.notify key detail).Prepares s (stage, s.form.standing) stage := by
  refine .aside ?_ fun s' eq => .inl ?_
  · unfold notify
    dsimp only
    split <;> rfl
  · unfold notify at eq
    dsimp only at eq
    split at eq
    · rename_i fails
      cases eq
      simp [log, update, Form.log, Form.failed, Callback.hasFailed_called fails]
    · cases eq

theorem reportInvalid_prepares (errors : FieldErrors) (stage : Stage) :
    (s.reportInvalid errors).Prepares s (stage, s.form.standing) stage := by
  refine .aside ?_ fun s' eq => .inl ?_
  · unfold reportInvalid
    split
    · rfl
    · dsimp only
      split <;> rfl
  · unfold reportInvalid at eq
    split at eq
    · cases eq
    · dsimp only at eq
      split at eq
      · rename_i fails
        cases eq
        simp [log, update, Form.log, Form.failed, Callback.hasFailed_called fails]
      · cases eq

theorem putStore_prepares {store : Option Store} {stage : Stage} (breaks : stage.breaks = true)
    (written : ∀ st, store = some st → s.form.store.dirty.Written st.dirty) :
    (s.putStore store).Prepares s (stage, s.form.standing) stage := by
  cases store with
  | none => exact .aside rfl fun s' eq => .inr breaks
  | some st =>
    have writes : Standing.Move (stage, s.form.standing)
        (stage, { s.form.standing with dirty := st.dirty }) := .writes breaks (written st rfl)
    exact .goesOn (.single writes) rfl

theorem answerAll_standing (tickets : List Ticket) (reply : Reply) :
    (s.answerAll tickets reply).form.standing = s.form.standing := by
  have told : (tickets.map fun t => Event.answered t reply).filter Event.isMark = [] := by
    simp [Event.isMark]
  simp [Form.standing, answerAll_form, List.filter_reverse, told]

/-! ## Acts that write and wait -/

theorem runHook_standing (path : FieldPath) (value : Json) :
    (s.runHook path value).form.standing = s.form.standing := by
  unfold runHook
  split <;> rfl

theorem post_standing (f : Form) {m : Message} (aside : m.hides? = none) :
    (f.post m).standing = f.standing := by
  unfold Form.post
  split
  · simp [Form.standing, aside]
  · rfl

theorem requestSubmit_standing : (s.requestSubmit now).form.standing = s.form.standing := by
  unfold requestSubmit update
  dsimp only
  split
  · exact post_standing _ rfl
  · rfl

theorem defer_standing (trigger : Trigger) (waiters : List Ticket) :
    (s.defer trigger waiters).form.standing = s.form.standing := by
  unfold defer update
  dsimp only
  split <;> rfl

theorem noteChanged_path (path : FieldPath) :
    Standing.Path (.resting, s.form.standing) (.resting, (s.noteChanged path).form.standing) := by
  unfold noteChanged update
  dsimp only
  split
  · rename_i edits
    have busy : s.form.pending.isSome = true := (Bool.and_eq_true_iff.mp edits).1
    exact .single (.notes busy)
  · exact .refl

theorem scheduleLoaderHide_standing : ∃ loader,
    (loader.visible = false ∨ ∃ due, loader.hideTimer = some ⟨due, loader.generation⟩) ∧
    (s.releaseToken.scheduleLoaderHide now).form.standing =
      { s.form.standing with held := false, loader } := by
  unfold scheduleLoaderHide update
  simp only [releaseToken_form]
  split
  · exact ⟨{ s.form.loader with visible := false }, .inl rfl, rfl⟩
  · exact ⟨{ s.form.loader with
      hideTimer := some ⟨now + s.form.setup.loaderDelay, s.form.loader.generation⟩ },
      .inr ⟨_, rfl⟩, rfl⟩

/-! ## Attempts -/

theorem begun_standing (trigger : Trigger) (waiters : List Ticket) :
    ((s.begun trigger waiters).showLoader.log
      (.began (s.form.nextRun trigger).cycle trigger)).form.standing =
        s.form.standing.begin trigger := rfl

theorem beginCycle_passes {stage : Stage} (trigger : Trigger) (waiters : List Ticket)
    (free : stage.Free s.form.standing) :
    (s.beginCycle trigger waiters).Passes s (stage, s.form.standing) .resting := by
  have begins : Standing.Move (stage, s.form.standing) (.begun, s.form.standing.begin trigger) :=
    .begins free
  rw [← s.begun_standing trigger waiters] at begins
  rw [beginCycle_eq]
  apply Turn.Passes.andThen
  · exact .since (publish_passes _ .begun) (.single begins) rfl
  · intro s'
    exact .goesOn .refl rfl
  · intro s'
    rfl

theorem halt_passes {stage : Stage} (trigger : Trigger) (waiters : List Ticket)
    {errors : FieldErrors} (free : stage.Free s.form.standing) (invalid : errors ≠ []) :
    (s.halt trigger waiters errors).Passes s (stage, s.form.standing) .resting := by
  have halts : Standing.Move (stage, s.form.standing)
      (.halted, s.form.standing.halt trigger errors) := .halts free invalid
  unfold halt
  apply Turn.Prepares.pass
  · exact .since (reportInvalid_prepares _ errors .halted) (.single halts) rfl
  intro s₁
  have told := s₁.answerAll_standing waiters (.outcome (.invalid errors))
  apply Turn.Passes.andThen
  · exact .after (publish_passes _ .halted) told
  · intro s₂
    exact s₂.publishCurrent_passes (.inr (.inl rfl))
  · intro s₂
    exact s₂.publish_keeps _

theorem startSubmission_passes {stage : Stage} (trigger : Trigger) (waiters : List Ticket)
    (free : stage.Free s.form.standing) :
    (s.startSubmission trigger waiters).Passes s (stage, s.form.standing) .resting := by
  unfold startSubmission
  dsimp only
  split
  · exact s.beginCycle_passes trigger waiters free
  · rename_i invalid
    apply s.halt_passes trigger waiters free
    intro none
    exact invalid (by rw [none]; rfl)

/-! ## Messages -/

theorem handleFieldChanged_passes (path : FieldPath) (value : Json) :
    (s.handleFieldChanged now path value).Passes s (.resting, s.form.standing) .resting := by
  have hooked := s.runHook_standing path value
  apply Turn.Prepares.pass
  · exact .after (putStore_prepares _ rfl fun st => Store.set?_written) hooked
  intro s₁
  apply Turn.Passes.since _ (s₁.noteChanged_path path) (s₁.noteChanged_display path)
  dsimp only
  split
  · exact .after (publishCurrent_passes _ (.inl rfl)) (requestSubmit_standing _ now)
  · exact publishCurrent_passes _ (.inl rfl)

theorem handleSetValue_passes (path : FieldPath) (value : Json) (dirty : Option Bool) :
    (s.handleSetValue now path value dirty).Passes s (.resting, s.form.standing) .resting := by
  unfold handleSetValue
  dsimp only
  generalize noted : (if dirty.getD s.form.setup.autoSubmit = true then s.noteChanged path else s) = n
  have notes : Standing.Path (.resting, s.form.standing) (.resting, n.form.standing) := by
    rw [← noted]
    split
    · exact s.noteChanged_path path
    · exact .refl
  have unshown : n.form.display = s.form.display := by
    rw [← noted]
    split
    · exact s.noteChanged_display path
    · rfl
  have same : n.form.store = s.form.store := by
    rw [← noted]
    split
    · exact s.noteChanged_store path
    · rfl
  apply Turn.Passes.since _ notes unshown
  apply Turn.Prepares.pass
  · exact putStore_prepares _ rfl fun st written => by
      rw [same] at written ⊢
      exact Store.set?_written written
  intro s₁
  split
  · exact .after (publishCurrent_passes _ (.inl rfl)) (requestSubmit_standing _ now)
  · exact publishCurrent_passes _ (.inl rfl)

theorem handleReset_passes (values : Option Json) :
    (s.handleReset values).Passes s (.resting, s.form.standing) .resting := by
  have resets : Standing.Move (.resting, s.form.standing)
      (.resting, { s.form.standing with
        errors := []
        changed := []
        dirty := (Store.reset (values.getD s.form.store.baseline)).dirty }) :=
    .resets (.compared _ _)
  unfold handleReset
  refine Turn.Passes.since (publishCurrent_passes _ (.inl rfl)) (.single ?_) rfl
  convert resets using 2
  simp [Form.standing, update, cancelDebounce]

theorem handleSubmit_passes (ticket : Ticket) :
    (s.handleSubmit ticket).Passes s (.resting, s.form.standing) .resting := by
  unfold handleSubmit
  split
  · have deferred := s.defer_standing .manual [ticket]
    exact .after (.goesOn .refl rfl) deferred
  · rename_i free
    have free : s.form.standing.flying = false := by simpa [Form.standing] using free
    exact .after (s.cancelDebounce.startSubmission_passes .manual [ticket] free) rfl

theorem handleRequest_passes (ticket : Ticket) (request : Request) :
    (s.handleRequest now ticket request).Passes s (.resting, s.form.standing) .resting := by
  cases request with
  | register path field =>
    unfold handleRequest
    dsimp only
    split <;> exact .goesOn .refl rfl
  | setValue path value dirty =>
    apply (s.handleSetValue_passes now path value dirty).andThen
    · intro s'
      exact .goesOn .refl rfl
    · intro s'
      rfl
  | reset values =>
    apply (s.handleReset_passes values).andThen
    · intro s'
      exact .goesOn .refl rfl
    · intro s'
      rfl
  | submit => exact s.handleSubmit_passes ticket
  | _ => exact .goesOn .refl rfl

theorem handleDebounceElapsed_passes (generation : Nat) :
    (s.handleDebounceElapsed generation).Passes s (.resting, s.form.standing) .resting := by
  unfold handleDebounceElapsed
  split
  · split
    · have deferred := s.cancelDebounce.defer_standing .auto []
      exact .after (publishCurrent_passes _ (.inl rfl)) deferred
    · rename_i free
      have free : s.form.standing.flying = false := by simpa [Form.standing] using free
      exact .after (s.cancelDebounce.startSubmission_passes .auto [] free) rfl
  · exact .goesOn .refl rfl

theorem acknowledge_prepares (p : Pending) (changed : List FieldPath) :
    (s.acknowledge p changed).Prepares s (.landed none, s.form.standing) (.judged none) := by
  unfold acknowledge
  apply Turn.Prepares.andThen
  · apply putStore_prepares _ rfl
    intro st written
    split at written
    · cases written
      exact .kept
    · exact Store.commit?_written _ written
  intro s'
  have judges : Standing.Move (.landed none, s'.form.standing)
      (.judged none, { s'.form.standing with successful := true }) := .judges
  have told := (s'.update fun f => { f with isSubmitSuccessful := true }).answerAll_standing
    p.waiters (.outcome (.submitted (submissionId p.cycle) p.dirtyValues))
  refine .since (.after (.goesOn .refl rfl) told) (.single judges) rfl

theorem reject_prepares (p : Pending) (e : SubmitError) :
    (s.reject p e).Prepares s (.landed (some e), s.form.standing) (.judged (some e)) := by
  have judges : Standing.Move (.landed (some e), s.form.standing)
      (.judged (some e), { s.form.standing with successful := false }) := .judges
  unfold reject
  apply Turn.Prepares.andThen
  · exact .since (notify_prepares _ _ _ _) (.single judges) rfl
  intro s'
  have told := s'.answerAll_standing p.waiters
    (.outcome (.rejected (submissionId p.cycle) e.message))
  exact .after (.goesOn .refl rfl) told

theorem handleSettled_passes (cycle : Nat) (failure : Option SubmitError) :
    (s.handleSettled now cycle failure).Passes s (.resting, s.form.standing) .resting := by
  unfold handleSettled
  split
  · exact .goesOn .refl rfl
  · rename_i p flight
    split
    · exact .goesOn .refl rfl
    · have busy : s.form.standing.flying = true := by simp [Form.standing, flight]
      have lands : Standing.Move (.resting, s.form.standing)
          (.landed failure, s.form.standing.land cycle failure) := .lands busy
      apply Turn.Prepares.pass
      · show Turn.Prepares _ s _ (.judged failure)
        cases failure with
        | none => exact .since (acknowledge_prepares _ p _) (.single lands) rfl
        | some e => exact .since (reject_prepares _ p e) (.single lands) rfl
      intro s₁
      -- What was held is given back before the end is shown.
      obtain ⟨loader, dims, cleared⟩ := s₁.scheduleLoaderHide_standing now
      have clears : Standing.Move (.judged failure, s₁.form.standing)
          (.cleared failure, (s₁.releaseToken.scheduleLoaderHide now).form.standing) :=
        cleared ▸ .clears dims
      have unshown : (s₁.releaseToken.scheduleLoaderHide now).form.display = s₁.form.display := by
        rw [scheduleLoaderHide_display, releaseToken_display]
      apply Turn.Passes.andThen
      · show Turn.Passes _ s₁ _ .shown
        cases failure with
        | none => exact .since (publish_passes _ .succeeded) (.single clears) unshown
        | some e => exact .since (publish_passes _ .failed) (.single clears) unshown
      · intro s₂
        split
        · exact .after (startSubmission_passes _ _ _ trivial) rfl
        · exact s₂.publishCurrent_passes (.inr (.inr rfl))
      · intro s₂
        split
        · exact startSubmission_keeps _ _ _
        · exact s₂.publish_keeps _

theorem handleLoaded_passes (outcome : Except String Json) :
    (s.handleLoaded outcome).Passes s (.resting, s.form.standing) .resting := by
  unfold handleLoaded
  apply Turn.Prepares.pass
  · show Turn.Prepares _ s _ .resting
    cases outcome with
    | error message => exact .after (notify_prepares _ _ _ _) rfl
    | ok values =>
      apply Turn.Prepares.andThen
      · exact .after (putStore_prepares _ rfl fun st => Store.commit?_written _) rfl
      intro s'
      exact .goesOn .refl rfl
  intro s'
  exact s'.publishCurrent_passes (.inl rfl)

/-- The notice is still in the mailbox when it is heard. -/
theorem handleHideLoader_passes (generation : Nat) :
    (s.handleHideLoader generation).Passes s
      (.resting, { s.form.standing with notices := generation :: s.form.standing.notices })
      .resting := by
  unfold handleHideLoader
  by_cases counts : generation = s.form.loader.generation ∧ s.form.pending = none
  · obtain ⟨rfl, free⟩ := counts
    have free : s.form.standing.flying = false := by simp [Form.standing, free]
    rw [if_pos (by simpa [Form.standing] using free)]
    exact .since (publishCurrent_passes _ (.inl rfl)) (.single (.hides rfl free)) rfl
  · have idle : generation ≠ s.form.standing.loader.generation ∨ s.form.standing.flying = true := by
      simp only [Form.standing, Option.isSome_iff_ne_none]
      exact Decidable.not_and_iff_or_not.mp counts
    rw [if_neg (by simpa using counts)]
    exact .goesOn (.single (.hears rfl idle)) rfl

/-- Any message leads from rest to rest. -/
theorem handle_passes (m : Message) :
    (s.handle now m).Passes s
      (.resting, { s.form.standing with
        notices := m.hides?.toList ++ s.form.standing.notices }) .resting := by
  cases m with
  | ask ticket request => exact s.handleRequest_passes now ticket request
  | fieldChanged path value => exact s.handleFieldChanged_passes now path value
  | debounceElapsed generation => exact s.handleDebounceElapsed_passes generation
  | settled cycle failure => exact s.handleSettled_passes now cycle failure
  | loaded outcome => exact s.handleLoaded_passes outcome
  | hideLoader generation => exact s.handleHideLoader_passes generation

end Scene

end LiveForm
