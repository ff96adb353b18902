import LiveForm.Proofs.Coordinator

/-!
# What handling a message does to the coordinator

One lemma for each act of `Form/Scene` and `Form/Handling`, in their order. Acts that only show
something or touch values leave the coordinator alone; `handle_ends` puts the others together.
-/

set_option autoImplicit false

namespace LiveForm

open Coordinator

namespace Scene

variable (s : Scene) (now : Nat)

/-! ## Acts that show and tell -/

theorem observe_ends (shown : Snapshot) : (s.observe shown).Ends s (· = s.form.coordinator) := by
  unfold observe
  split
  · exact .goesOn List.suffix_rfl rfl
  · apply Turn.Ends.apart <;> split <;> first | rfl | exact List.suffix_cons _ _

theorem publish_ends (phase : FormPhase) : (s.publish phase).Ends s (· = s.form.coordinator) := by
  unfold publish
  dsimp only
  split
  · exact .goesOn List.suffix_rfl rfl
  · exact (observe_ends (s.update fun f => { f with published := s.form.snapshot phase }) _).since
      List.suffix_rfl

theorem publishCurrent_ends : s.publishCurrent.Ends s (· = s.form.coordinator) :=
  s.publish_ends _

theorem notify_ends (key : MessageKey) (detail : String) :
    (s.notify key detail).Ends s (· = s.form.coordinator) := by
  unfold notify
  apply Turn.Ends.apart <;> dsimp only <;> split <;> first | rfl | exact List.suffix_cons _ _

theorem reportInvalid_ends (errors : FieldErrors) :
    (s.reportInvalid errors).Ends s (· = s.form.coordinator) := by
  unfold reportInvalid
  split
  · exact .goesOn List.suffix_rfl rfl
  · apply Turn.Ends.apart <;> split <;> first | rfl | exact List.suffix_cons _ _

/-! ## Small acts -/

theorem runHook_past (path : FieldPath) (value : Json) :
    s.form.history <:+ (s.runHook path value).form.history := by
  unfold runHook
  split
  · exact List.suffix_cons _ _
  · exact List.suffix_rfl

@[simp] theorem runHook_coordinator (path : FieldPath) (value : Json) :
    (s.runHook path value).form.coordinator = s.form.coordinator := by
  unfold runHook
  split <;> rfl

@[simp] theorem noteChanged_history (path : FieldPath) :
    (s.noteChanged path).form.history = s.form.history := by
  unfold noteChanged update
  dsimp only
  split <;> rfl

@[simp] theorem noteChanged_coordinator (path : FieldPath) :
    (s.noteChanged path).form.coordinator = s.form.coordinator := by
  unfold noteChanged update
  dsimp only
  split <;> rfl

theorem putStore_ends (store : Option Store) :
    (s.putStore store).Ends s (· = s.form.coordinator) := by
  unfold putStore
  split <;> exact .apart List.suffix_rfl rfl

@[simp] theorem cancelDebounce_coordinator :
    s.cancelDebounce.form.coordinator = s.form.coordinator.cancel := rfl

theorem post_coordinator (f : Form) (m : Message) :
    (f.post m).coordinator = f.coordinator.post m := by
  unfold Form.post Coordinator.post
  by_cases h : f.alive = true <;> simp [Form.coordinator, h]

@[simp] theorem requestSubmit_coordinator :
    (s.requestSubmit now).form.coordinator = s.form.coordinator.request now := by
  have setup : s.form.coordinator.setup = s.form.setup := rfl
  unfold requestSubmit Coordinator.request update
  dsimp only
  rw [setup]
  cases s.form.setup.wait with
  | none => exact post_coordinator _ _
  | some wait => rfl

@[simp] theorem requestSubmit_history :
    (s.requestSubmit now).form.history = s.form.history := by
  unfold requestSubmit update
  dsimp only
  split
  · unfold Form.post
    split <;> rfl
  · rfl

@[simp] theorem defer_coordinator (trigger : Trigger) (waiters : List Ticket) :
    (s.defer trigger waiters).form.coordinator = s.form.coordinator.defer trigger waiters := by
  unfold defer Coordinator.defer update
  dsimp only
  split <;> simp_all [Form.coordinator]

@[simp] theorem defer_history (trigger : Trigger) (waiters : List Ticket) :
    (s.defer trigger waiters).form.history = s.form.history := by
  unfold defer update
  dsimp only
  split <;> rfl

@[simp] theorem releaseToken_coordinator :
    s.releaseToken.form.coordinator = s.form.coordinator := by
  unfold releaseToken
  split <;> rfl

@[simp] theorem releaseToken_history : s.releaseToken.form.history = s.form.history := by
  unfold releaseToken
  split <;> rfl

@[simp] theorem scheduleLoaderHide_coordinator :
    (s.scheduleLoaderHide now).form.coordinator = s.form.coordinator := by
  unfold scheduleLoaderHide update
  dsimp only
  split <;> rfl

@[simp] theorem scheduleLoaderHide_history :
    (s.scheduleLoaderHide now).form.history = s.form.history := by
  unfold scheduleLoaderHide update
  dsimp only
  split <;> rfl

theorem answerAll_form (tickets : List Ticket) (reply : Reply) :
    (s.answerAll tickets reply).form =
      { s.form with
        history := (tickets.map fun t => .answered t reply).reverse ++ s.form.history } := by
  unfold answerAll
  induction tickets generalizing s with
  | nil => rfl
  | cons t rest ih =>
    rw [List.foldl_cons, ih]
    simp [answer, log, update, Form.log]

theorem answerAll_coordinator (tickets : List Ticket) (reply : Reply) :
    (s.answerAll tickets reply).form.coordinator = s.form.coordinator.answer tickets reply := by
  have told : (tickets.map fun t => Event.answered t reply).filter Event.isRecorded =
      tickets.map fun t => Event.answered t reply := by
    simp [List.filter_eq_self, Event.isRecorded]
  simp [Form.coordinator, Coordinator.answer, answerAll_form, List.filter_reverse, told]

theorem answerAll_past (tickets : List Ticket) (reply : Reply) :
    s.form.history <:+ (s.answerAll tickets reply).form.history := by
  rw [answerAll_form]
  exact List.suffix_append _ _

/-! ## Beginning a submission -/

/-- No call of a new run has started yet. -/
theorem nextRun_fresh (f : Form) (trigger : Trigger) :
    ∀ call ∈ (f.nextRun trigger).calls, call.state = .waiting := by
  intro call among
  rcases List.mem_append.mp among with listener | handler
  · obtain ⟨x, _, made⟩ := List.mem_filterMap.mp listener
    simp only [Form.listenerCall?, Option.ite_none_right_eq_some, Option.map_eq_some_iff] at made
    obtain ⟨_, v, _, rfl⟩ := made
    rfl
  · unfold Form.handlerCall at handler
    split at handler
    · rw [List.mem_singleton.mp handler]
    · cases handler

theorem beginCycle_ends (trigger : Trigger) (waiters : List Ticket) :
    (s.beginCycle trigger waiters).Ends s
      (· = s.form.coordinator.begin (s.form.nextPending trigger waiters)
        (s.form.nextRun trigger)) := by
  unfold beginCycle
  refine ((publish_ends _ _).since (List.suffix_cons _ _)).andThen ?_
    fun c eq => ⟨_, rfl, eq ▸ ⟨List.suffix_rfl, List.prefix_append _ _⟩⟩
  intro s' eq
  refine .goesOn List.suffix_rfl ?_
  show ({ s'.form.coordinator with runs := s'.form.coordinator.runs ++ [s.form.nextRun trigger] } :
    Coordinator) = _
  rw [eq]
  rfl

theorem halt_ends (trigger : Trigger) (waiters : List Ticket) (errors : FieldErrors) :
    (s.halt trigger waiters errors).Ends s
      (· = s.form.coordinator.halt trigger waiters errors) := by
  unfold halt
  refine ((reportInvalid_ends _ _).since (List.suffix_cons _ _)).andThen ?_
    fun c eq => ⟨_, rfl, eq ▸ (Precedes.answer _ waiters _)⟩
  intro s' eq
  have answered : (s'.answerAll waiters (.outcome (.invalid errors))).form.coordinator =
      s.form.coordinator.halt trigger waiters errors := by
    rw [answerAll_coordinator, eq]
    rfl
  refine ((publish_ends _ _).since (answerAll_past _ _ _)).andThen (fun s'' eq => ?_)
    fun c eq => ⟨_, rfl, ?_⟩
  · exact (publishCurrent_ends s'').mono fun c same => same.trans (eq.trans answered)
  · exact (eq.trans answered) ▸ .refl _

theorem startSubmission_ends (trigger : Trigger) (waiters : List Ticket) :
    (s.startSubmission trigger waiters).Ends s (s.form.coordinator.Attempts trigger waiters) := by
  unfold startSubmission
  dsimp only
  split
  · exact (beginCycle_ends s trigger waiters).mono fun c eq =>
      eq ▸ .begins rfl rfl rfl rfl (nextRun_fresh s.form trigger)
  · rename_i invalid
    exact (halt_ends s trigger waiters _).mono fun c eq =>
      eq ▸ .halts fun none => invalid (by simp [none])

/-! ## Messages -/

theorem handleFieldChanged_ends (path : FieldPath) (value : Json) :
    (s.handleFieldChanged now path value).Ends s
      (· = if s.form.setup.autoSubmit then s.form.coordinator.request now
        else s.form.coordinator) := by
  unfold handleFieldChanged
  refine ((putStore_ends _ _).since (runHook_past s path value)).andThen (fun s' eq => ?_)
    fun c eq => ⟨_, rfl, ?_⟩
  · rw [runHook_coordinator] at eq
    have auto : (s'.noteChanged path).form.setup.autoSubmit = s.form.setup.autoSubmit := by
      have := congrArg Coordinator.setup ((noteChanged_coordinator s' path).trans eq)
      exact congrArg FormSetup.autoSubmit this
    dsimp only
    rw [auto]
    split
    · refine ((publishCurrent_ends _).since (by simp)).mono ?_
      intro c same
      simp [same, eq]
    · refine ((publishCurrent_ends _).since (by simp)).mono ?_
      intro c same
      simp [same, eq]
  · subst eq
    rw [runHook_coordinator]
    split
    · exact .request _ _
    · exact .refl _

theorem handleSetValue_ends (path : FieldPath) (value : Json) (dirty : Option Bool) :
    (s.handleSetValue now path value dirty).Ends s
      (· = if s.form.setup.autoSubmit && dirty.getD s.form.setup.autoSubmit &&
          s.form.store.changes path value
        then s.form.coordinator.request now else s.form.coordinator) := by
  unfold handleSetValue
  dsimp only
  generalize noted : (if dirty.getD s.form.setup.autoSubmit = true then s.noteChanged path else s) = n
  have same : n.form.coordinator = s.form.coordinator ∧ n.form.history = s.form.history := by
    subst noted
    split <;> simp
  refine ((putStore_ends _ _).since (same.2 ▸ List.suffix_rfl)).andThen (fun s' eq => ?_)
    fun c eq => ⟨_, rfl, ?_⟩
  · have auto : s'.form.setup.autoSubmit = s.form.setup.autoSubmit :=
      congrArg (fun c => c.setup.autoSubmit) (eq.trans same.1)
    rw [auto]
    split
    · refine ((publishCurrent_ends _).since (by simp)).mono ?_
      intro c shown
      simp [shown, eq, same.1]
    · refine (publishCurrent_ends _).mono ?_
      intro c shown
      simp [shown, eq, same.1]
  · rw [eq, same.1]
    split
    · exact .request _ _
    · exact .refl _

theorem handleSubmit_ends (ticket : Ticket) :
    (s.handleSubmit ticket).Ends s (s.form.coordinator.Handles now (.ask ticket .submit)) := by
  unfold handleSubmit
  split
  · rename_i busy
    refine .goesOn (by simp) ?_
    rw [defer_coordinator]
    exact .submitLater (by simpa [Form.coordinator] using busy)
  · rename_i free
    refine .mono (.since (startSubmission_ends s.cancelDebounce .manual [ticket]) List.suffix_rfl)
      fun c next => .submitNow ?_ next
    simpa [Form.coordinator] using free

theorem handleReset_ends (values : Option Json) :
    (s.handleReset values).Ends s (· = s.form.coordinator.cancel) := by
  unfold handleReset
  refine .mono (.since (publishCurrent_ends _) List.suffix_rfl) fun c eq => eq.trans ?_
  simp only [Form.coordinator, update, cancelDebounce, Coordinator.cancel, Option.map_map]
  rfl

theorem answered_ends {t : Turn} {c : Coordinator} (h : t.Ends s (· = c)) (ticket : Ticket) :
    (t.andThen fun s => .goesOn (s.answer ticket .done)).Ends s (· = c.answer [ticket] .done) :=
  h.andThen
    (fun _ eq => .goesOn (List.suffix_cons _ _) (congrArg (Coordinator.answer · [ticket] .done) eq))
    fun _ eq => ⟨_, rfl, eq ▸ .answer _ _ _⟩

theorem handleRequest_ends (ticket : Ticket) (request : Request) :
    (s.handleRequest now ticket request).Ends s
      (s.form.coordinator.Handles now (.ask ticket request)) := by
  cases request with
  | register path field =>
    simp only [handleRequest]
    split <;> exact .goesOn (List.suffix_cons _ _) (.told rfl)
  | setValue path value dirty =>
    refine (answered_ends s (handleSetValue_ends s now path value dirty) ticket).mono ?_
    intro c eq
    subst eq
    split
    · exact .written
    · exact .told rfl
  | submit => exact handleSubmit_ends s now ticket
  | reset values =>
    exact (answered_ends s (handleReset_ends s values) ticket).mono fun c eq => eq ▸ .reset
  | unregister | getValue | getValues | getDirtyValues | getState | getSubmitButton =>
    exact .goesOn (List.suffix_cons _ _) (.told rfl)

theorem handleDebounceElapsed_ends (generation : Nat) :
    (s.handleDebounceElapsed generation).Ends s
      (s.form.coordinator.Handles now (.debounceElapsed generation)) := by
  unfold handleDebounceElapsed
  split
  · rename_i counts
    obtain ⟨rfl, armed⟩ : generation = s.form.debounce.generation ∧ s.form.debounce.armed = true := by
      simpa using counts
    split
    · rename_i busy
      refine ((publishCurrent_ends _).since (by simp [cancelDebounce, update])).mono ?_
      intro c eq
      rw [defer_coordinator, cancelDebounce_coordinator] at eq
      exact eq ▸ .elapsedLater armed (by simpa [Form.coordinator] using busy)
    · rename_i free
      refine .mono (.since (startSubmission_ends s.cancelDebounce .auto []) List.suffix_rfl)
        fun c next => .elapsedNow armed ?_ next
      simpa [Form.coordinator] using free
  · rename_i old
    exact .goesOn List.suffix_rfl (.stale (by simpa [Form.coordinator] using old))

/-! ## The end of a submission -/

theorem acknowledge_ends (p : Pending) (changed : List FieldPath) :
    (s.acknowledge p changed).Ends s
      (· = s.form.coordinator.answer p.waiters (.outcome (p.outcome none))) := by
  unfold acknowledge
  refine (putStore_ends s _).andThen ?_
    fun c eq => ⟨_, rfl, eq ▸ .answer _ _ _⟩
  intro s' eq
  refine .goesOn ?_ ?_
  · rw [answerAll_form]
    exact List.suffix_append _ _
  · rw [answerAll_coordinator]
    exact congrArg (Coordinator.answer · p.waiters (.outcome (p.outcome none))) eq

theorem reject_ends (p : Pending) (e : SubmitError) :
    (s.reject p e).Ends s
      (· = s.form.coordinator.answer p.waiters (.outcome (p.outcome (some e)))) := by
  unfold reject
  refine .andThen (.since (notify_ends _ _ _) List.suffix_rfl) ?_
    fun c eq => ⟨_, rfl, eq ▸ .answer _ _ _⟩
  intro s' eq
  refine .goesOn (answerAll_past _ _ _) ?_
  rw [answerAll_coordinator]
  exact congrArg (Coordinator.answer · p.waiters (.outcome (p.outcome (some e)))) eq

/-- After a settlement there is a way on that keeps what it has brought. -/
theorem settled_onward {c : Coordinator} {p : Pending} (flight : c.pending = some p)
    (failure : Option SubmitError) :
    ∃ c', c.Handles now (.settled p.cycle failure) c' ∧
      (c.settle p failure).Precedes c' := by
  cases waiting : c.deferred with
  | none => exact ⟨_, .settledLast flight waiting, .refl _⟩
  | some d =>
    refine ⟨_, .settledNext flight waiting (.halts (List.cons_ne_nil ("", "") [])), ?_⟩
    exact ⟨(List.suffix_cons _ _).trans (List.suffix_append _ _), List.prefix_rfl⟩

theorem handleSettled_ends (cycle : Nat) (failure : Option SubmitError) :
    (s.handleSettled now cycle failure).Ends s
      (s.form.coordinator.Handles now (.settled cycle failure)) := by
  unfold handleSettled
  split
  · rename_i none
    exact .goesOn List.suffix_rfl (.unknown fun p h => by simp [Form.coordinator, none] at h)
  · rename_i p pending
    have flight : s.form.coordinator.pending = some p.regardless := by
      simp [Form.coordinator, pending]
    split
    · rename_i other
      refine .goesOn List.suffix_rfl (.unknown ?_)
      intro q h
      obtain rfl : p.regardless = q := by simpa [flight] using h
      exact other
    · rename_i same
      obtain rfl : p.cycle = cycle := Decidable.not_not.mp same
      have onward := settled_onward now flight failure
      refine .andThen (P := (· = s.form.coordinator.settle p.regardless failure)) ?_
        ?_ fun c eq => eq ▸ onward
      · cases failure with
        | none => exact (acknowledge_ends _ p _).since (List.suffix_cons _ _)
        | some e => exact (reject_ends _ p e).since (List.suffix_cons _ _)
      · intro s' told
        refine .andThen (.since (publish_ends _ _) (by simp)) (fun s'' shown => ?_)
          fun c eq => ?_
        rw [scheduleLoaderHide_coordinator, releaseToken_coordinator, told] at shown
        have waits : s''.form.deferred = s.form.deferred :=
          congrArg Coordinator.deferred shown
        split
        · rename_i d deferred
          refine .mono (.since (startSubmission_ends _ _ _) List.suffix_rfl) ?_
          intro c next
          refine .settledNext (p := p.regardless) (d := d) flight (waits.symm.trans deferred) ?_
          rw [← shown]
          exact next
        · rename_i none
          refine (publishCurrent_ends _).mono ?_
          intro c eq
          rw [eq, shown]
          exact .settledLast (p := p.regardless) flight (waits.symm.trans none)
        · rw [eq, scheduleLoaderHide_coordinator, releaseToken_coordinator, told]
          exact onward

/-! ## Any message -/

theorem handleLoaded_ends (outcome : Except String Json) :
    (s.handleLoaded outcome).Ends s (· = s.form.coordinator) := by
  have shown (s' : Scene) (eq : s'.form.coordinator = s.form.coordinator) :
      s'.publishCurrent.Ends s' (· = s.form.coordinator) :=
    (publishCurrent_ends s').mono fun c same => same.trans eq
  unfold handleLoaded
  cases outcome with
  | ok values =>
    refine Turn.Ends.andThen ?_ shown fun c eq => ⟨c, eq, .refl _⟩
    exact .andThen (.since (putStore_ends _ _) List.suffix_rfl)
      (fun s' eq => .goesOn List.suffix_rfl eq) fun c eq => ⟨c, eq, .refl _⟩
  | error message =>
    refine Turn.Ends.andThen ?_ shown fun c eq => ⟨c, eq, .refl _⟩
    exact (notify_ends _ _ _).since List.suffix_rfl

theorem handleHideLoader_ends (generation : Nat) :
    (s.handleHideLoader generation).Ends s (· = s.form.coordinator) := by
  unfold handleHideLoader
  split
  · exact (publishCurrent_ends _).since List.suffix_rfl
  · exact .goesOn List.suffix_rfl rfl

theorem handle_ends (m : Message) :
    (s.handle now m).Ends s (s.form.coordinator.Handles now m) := by
  cases m with
  | ask ticket request => exact handleRequest_ends s now ticket request
  | fieldChanged path value =>
    refine (handleFieldChanged_ends s now path value).mono ?_
    intro c eq
    subst eq
    split
    · exact .changed
    · exact .aside rfl
  | debounceElapsed generation => exact handleDebounceElapsed_ends s now generation
  | settled cycle failure => exact handleSettled_ends s now cycle failure
  | loaded outcome => exact (handleLoaded_ends s outcome).mono fun c eq => eq ▸ .aside rfl
  | hideLoader generation =>
    exact (handleHideLoader_ends s generation).mono fun c eq => eq ▸ .aside rfl

end Scene

end LiveForm
