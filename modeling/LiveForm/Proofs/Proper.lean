import LiveForm.Proofs.Coordinator.Step
import LiveForm.Proofs.Json.Replay

/-!
# The values that a form holds

Hosts hand over proper values, under paths that have segments. Whatever is done, the values of the
form and its baseline stay proper objects, and so do those of the submission in flight.

* `Deed.Proper`, `FormConfig.Proper`: what hosts hand over;
* `Form.Proper`: what a form holds and has still to handle;
* `proper`: it holds at every moment that is reached.
-/

set_option autoImplicit false

namespace LiveForm

open Json

/-! ## What hosts hand over -/

/-- An edit has a path with segments, and a proper value. -/
structure Json.ProperAt (v : Json) (p : FieldPath) : Prop where
  named : p.segments ≠ []
  proper : v.Proper

def Request.Proper : Request → Prop
  | .setValue path value _ => value.ProperAt path
  | .reset (some values) => values.Proper
  | _ => True

def Message.Proper : Message → Prop
  | .ask _ request => request.Proper
  | .fieldChanged path value => value.ProperAt path
  | .loaded (.ok values) => values.Proper
  | _ => True

def LoadOutcome.Proper : LoadOutcome → Prop
  | .values v => v.Proper
  | _ => True

def FormConfig.Proper (c : FormConfig) : Prop :=
  match c.defaults with
  | .given values => values.Proper
  | .loaded _ outcome => outcome.Proper

def Deed.Proper : Deed → Prop
  | .ask _ request => request.Proper
  | .change path value => value.ProperAt path
  | _ => True

/-! ## Stores -/

structure Store.Proper (s : Store) : Prop where
  values : s.values.Document
  baseline : s.baseline.Document

namespace Store

variable {s s' : Store} {v : Json} {p : FieldPath} {edits : List (FieldPath × Json)}

theorem rooted_document (h : v.Proper) : (rooted v).Document := by
  cases h with
  | obj sorted members => exact ⟨.obj sorted members, rfl⟩
  | _ => exact ⟨.obj .nil (by simp), rfl⟩

theorem rooted_of_document (h : v.Document) : rooted v = v := by
  obtain ⟨ms, rfl⟩ := kind?_eq_object h.object
  rfl

theorem new_proper (h : v.Proper) : (new v).Proper := ⟨rooted_document h, rooted_document h⟩

theorem reset_proper (h : v.Proper) : (reset v).Proper := ⟨rooted_document h, rooted_document h⟩

theorem Proper.set? {dirty : Bool} (h : s.Proper) (value : v.Proper)
    (written : s.set? p v dirty = some s') : s'.Proper := by
  obtain ⟨values, write, rfl⟩ := Option.map_eq_some_iff.mp written
  exact ⟨⟨h.values.proper.write? value write, write?_object h.values.object write⟩, h.baseline⟩

theorem writeAll?_document {t t' : Json} (h : t.Document) (each : ∀ e ∈ edits, e.2.Proper)
    (written : writeAll? t edits = some t') : t'.Document := by
  induction edits generalizing t with
  | nil =>
    cases written
    exact h
  | cons e rest ih =>
    obtain ⟨u, first, others⟩ := Option.bind_eq_some_iff.mp written
    have value := each e List.mem_cons_self
    exact ih ⟨h.proper.write? value first, write?_object h.object first⟩
      (fun e inside => each e (List.mem_cons_of_mem _ inside)) others

theorem commit?_proper {baseline : Json} (h : baseline.Proper) (each : ∀ e ∈ edits, e.2.Proper)
    (committed : commit? baseline edits = some s) : s.Proper := by
  obtain ⟨merged, written, rfl⟩ := Option.map_eq_some_iff.mp committed
  exact ⟨writeAll?_document (rooted_document h) each written, rooted_document h⟩

end Store

/-! ## Forms -/

structure Form.Proper (f : Form) : Prop where
  store : f.store.Proper
  pending : ∀ p, f.pending = some p → p.values.Document
  mailbox : ∀ m ∈ f.mailbox, m.Proper
  load : ∀ l, f.load = some l → l.outcome.Proper
  changed : ∀ q ∈ f.changedDuringSubmit, q.segments ≠ []

def Turn.Proper (t : Turn) : Prop := t.scene.form.Proper

namespace Form

variable {f g : Form}

theorem Proper.congr (h : f.Proper) (store : g.store = f.store) (pending : g.pending = f.pending)
    (mailbox : g.mailbox = f.mailbox) (load : g.load = f.load)
    (changed : g.changedDuringSubmit = f.changedDuringSubmit) : g.Proper := by
  constructor
  · exact store ▸ h.store
  · exact pending ▸ h.pending
  · exact mailbox ▸ h.mailbox
  · exact load ▸ h.load
  · exact changed ▸ h.changed

theorem Proper.post {m : Message} (h : f.Proper) (message : m.Proper) : (f.post m).Proper := by
  unfold Form.post
  split
  · refine ⟨h.store, h.pending, ?_, h.load, h.changed⟩
    intro m' inside
    rcases List.mem_append.mp inside with old | new
    · exact h.mailbox m' old
    · exact List.mem_singleton.mp new ▸ message
  · exact h

theorem Proper.liveEdits (h : f.Proper) (changed : List FieldPath) :
    ∀ e ∈ f.liveEdits changed, e.2.Proper := by
  intro e inside
  obtain ⟨path, -, live⟩ := List.mem_filterMap.mp inside
  obtain ⟨v, found, rfl⟩ := Option.map_eq_some_iff.mp live
  exact h.store.values.proper.follow? found

end Form

namespace Turn

variable {t : Turn}

theorem Proper.andThen {act : Scene → Turn} (h : t.Proper)
    (next : ∀ s : Scene, s.form.Proper → (act s).Proper) : (t.andThen act).Proper := by
  cases t with
  | goesOn s => exact next s h
  | falls s => exact h

end Turn

namespace Scene

variable {s : Scene} (now : Nat)

theorem releaseToken_proper (h : s.form.Proper) : s.releaseToken.form.Proper := by
  unfold releaseToken
  split
  · exact h.congr rfl rfl rfl rfl rfl
  · exact h

theorem close_proper (h : s.form.Proper) : s.close.form.Proper where
  store := (releaseToken_proper h).store
  pending := nofun
  mailbox := nofun
  load := nofun
  changed := nofun

theorem observe_proper (h : s.form.Proper) (shown : Snapshot) : (s.observe shown).Proper := by
  unfold observe
  split
  · exact h
  · dsimp only
    split <;> exact h.congr rfl rfl rfl rfl rfl

theorem publish_proper (h : s.form.Proper) (phase : FormPhase) : (s.publish phase).Proper := by
  unfold publish
  dsimp only
  split
  · exact h
  · refine observe_proper ?_ _
    exact h.congr rfl rfl rfl rfl rfl

theorem publishCurrent_proper (h : s.form.Proper) : s.publishCurrent.Proper :=
  publish_proper h s.form.phase

theorem notify_proper (h : s.form.Proper) (key : MessageKey) (detail : String) :
    (s.notify key detail).Proper := by
  unfold notify
  dsimp only
  split <;> exact h.congr rfl rfl rfl rfl rfl

theorem reportInvalid_proper (h : s.form.Proper) (errors : FieldErrors) :
    (s.reportInvalid errors).Proper := by
  unfold reportInvalid
  split
  · exact h
  · dsimp only
    split <;> exact h.congr rfl rfl rfl rfl rfl

theorem answerAll_proper (h : s.form.Proper) (tickets : List Ticket) (reply : Reply) :
    (s.answerAll tickets reply).form.Proper := by
  rw [answerAll_form]
  exact h.congr rfl rfl rfl rfl rfl

theorem runHook_proper (h : s.form.Proper) (path : FieldPath) (value : Json) :
    (s.runHook path value).form.Proper := by
  unfold runHook
  split
  · exact h.congr rfl rfl rfl rfl rfl
  · exact h

theorem putStore_proper {store : Option Store} (h : s.form.Proper)
    (proper : ∀ st, store = some st → st.Proper) : (s.putStore store).Proper := by
  cases store with
  | none => exact h
  | some st => exact ⟨proper st rfl, h.pending, h.mailbox, h.load, h.changed⟩

theorem noteChanged_proper {path : FieldPath} (h : s.form.Proper) (named : path.segments ≠ []) :
    (s.noteChanged path).form.Proper := by
  unfold noteChanged update
  dsimp only
  split
  · refine ⟨h.store, h.pending, h.mailbox, h.load, ?_⟩
    intro q inside
    rcases List.mem_append.mp inside with old | new
    · exact h.changed q old
    · exact List.mem_singleton.mp new ▸ named
  · exact h

theorem requestSubmit_proper (h : s.form.Proper) : (s.requestSubmit now).form.Proper := by
  unfold requestSubmit update
  dsimp only
  split
  · exact Form.Proper.post (h.congr rfl rfl rfl rfl rfl) trivial
  · exact h.congr rfl rfl rfl rfl rfl

theorem cancelDebounce_proper (h : s.form.Proper) : s.cancelDebounce.form.Proper :=
  h.congr rfl rfl rfl rfl rfl

theorem defer_proper (h : s.form.Proper) (trigger : Trigger) (waiters : List Ticket) :
    (s.defer trigger waiters).form.Proper := by
  unfold defer update
  dsimp only
  split <;> exact h.congr rfl rfl rfl rfl rfl

theorem scheduleLoaderHide_proper (h : s.form.Proper) : (s.scheduleLoaderHide now).form.Proper := by
  unfold scheduleLoaderHide update
  dsimp only
  split <;> exact h.congr rfl rfl rfl rfl rfl

theorem beginCycle_proper (h : s.form.Proper) (trigger : Trigger) (waiters : List Ticket) :
    (s.beginCycle trigger waiters).Proper := by
  unfold beginCycle
  refine Turn.Proper.andThen (publish_proper ?_ _) fun s' h' => h'.congr rfl rfl rfl rfl rfl
  exact ⟨h.store, fun p same => Option.some.inj same ▸ h.store.values, h.mailbox, h.load, h.changed⟩

theorem halt_proper (h : s.form.Proper) (trigger : Trigger) (waiters : List Ticket)
    (errors : FieldErrors) : (s.halt trigger waiters errors).Proper := by
  unfold halt
  refine Turn.Proper.andThen (reportInvalid_proper ?_ _) ?_
  · exact h.congr rfl rfl rfl rfl rfl
  · intro s' h'
    exact Turn.Proper.andThen (publish_proper (answerAll_proper h' _ _) _) fun s'' h'' =>
      publishCurrent_proper h''

theorem startSubmission_proper (h : s.form.Proper) (trigger : Trigger) (waiters : List Ticket) :
    (s.startSubmission trigger waiters).Proper := by
  unfold startSubmission
  dsimp only
  split
  · exact beginCycle_proper h _ _
  · exact halt_proper h _ _ _

/-! ## Messages -/

variable {path : FieldPath} {value : Json}

theorem handleFieldChanged_proper (h : s.form.Proper) (edit : value.ProperAt path) :
    (s.handleFieldChanged now path value).Proper := by
  unfold handleFieldChanged
  have shown := runHook_proper h path value
  refine Turn.Proper.andThen (putStore_proper shown ?_) ?_
  · intro st written
    exact shown.store.set? edit.proper written
  · intro s' h'
    have noted := noteChanged_proper h' edit.named
    apply publishCurrent_proper
    split
    · exact requestSubmit_proper now noted
    · exact noted

theorem handleSetValue_proper (h : s.form.Proper) (edit : value.ProperAt path)
    (dirty : Option Bool) : (s.handleSetValue now path value dirty).Proper := by
  unfold handleSetValue
  refine Turn.Proper.andThen (putStore_proper ?_ ?_) ?_
  · split
    · exact noteChanged_proper h edit.named
    · exact h
  · intro st written
    refine Store.Proper.set? ?_ edit.proper written
    split
    · exact (noteChanged_proper h edit.named).store
    · exact h.store
  · intro s' h'
    apply publishCurrent_proper
    split
    · exact requestSubmit_proper now h'
    · exact h'

theorem handleSubmit_proper (h : s.form.Proper) (ticket : Ticket) :
    (s.handleSubmit ticket).Proper := by
  unfold handleSubmit
  split
  · exact defer_proper h _ _
  · exact startSubmission_proper (cancelDebounce_proper h) _ _

theorem handleReset_proper {values : Option Json} (h : s.form.Proper)
    (given : (Request.reset values).Proper) : (s.handleReset values).Proper := by
  unfold handleReset
  apply publishCurrent_proper
  refine ⟨Store.reset_proper ?_, ?_, h.mailbox, h.load, nofun⟩
  · cases values with
    | none => exact h.store.baseline.proper
    | some v => exact given
  · intro p same
    obtain ⟨p', flight, rfl⟩ := Option.map_eq_some_iff.mp same
    exact h.pending p' flight

theorem handleRequest_proper {request : Request} (h : s.form.Proper) (given : request.Proper)
    (ticket : Ticket) : (s.handleRequest now ticket request).Proper := by
  cases request with
  | register path field =>
    unfold handleRequest
    dsimp only
    split <;> exact h.congr rfl rfl rfl rfl rfl
  | setValue path value dirty =>
    exact Turn.Proper.andThen (handleSetValue_proper now h given dirty) fun s' h' =>
      h'.congr rfl rfl rfl rfl rfl
  | submit => exact handleSubmit_proper h ticket
  | reset values =>
    exact Turn.Proper.andThen (handleReset_proper h given) fun s' h' =>
      h'.congr rfl rfl rfl rfl rfl
  | _ => exact h.congr rfl rfl rfl rfl rfl

theorem handleDebounceElapsed_proper (h : s.form.Proper) (generation : Nat) :
    (s.handleDebounceElapsed generation).Proper := by
  unfold handleDebounceElapsed
  split
  · split
    · exact publishCurrent_proper (defer_proper (cancelDebounce_proper h) _ _)
    · exact startSubmission_proper (cancelDebounce_proper h) _ _
  · exact h

theorem acknowledge_proper {p : Pending} (h : s.form.Proper) (values : p.values.Proper)
    (changed : List FieldPath) : (s.acknowledge p changed).Proper := by
  unfold acknowledge
  refine Turn.Proper.andThen (putStore_proper h ?_) ?_
  · intro st committed
    split at committed
    · cases committed
      exact h.store
    · exact Store.commit?_proper values (h.liveEdits changed) committed
  · intro s' h'
    refine answerAll_proper ?_ _ _
    exact h'.congr rfl rfl rfl rfl rfl

theorem reject_proper {p : Pending} (h : s.form.Proper) (e : SubmitError) :
    (s.reject p e).Proper := by
  unfold reject
  refine Turn.Proper.andThen (notify_proper ?_ _ _) fun s' h' => answerAll_proper h' _ _
  exact h.congr rfl rfl rfl rfl rfl

theorem handleSettled_proper (h : s.form.Proper) (cycle : Nat) (failure : Option SubmitError) :
    (s.handleSettled now cycle failure).Proper := by
  unfold handleSettled
  split
  · exact h
  · rename_i p flight
    split
    · exact h
    · dsimp only
      generalize started : (s.update fun f => { f with pending := none, changedDuringSubmit := [] }).log
        (.settled cycle failure) = s₁
      have landed : s₁.form.Proper := by
        subst started
        exact ⟨h.store, nofun, h.mailbox, h.load, nofun⟩
      refine Turn.Proper.andThen ?_ fun s₂ h₂ => Turn.Proper.andThen ?_ fun s₃ h₃ => ?_
      · cases failure with
        | none => exact acknowledge_proper landed (h.pending p flight).proper _
        | some e => exact reject_proper landed e
      · exact publish_proper (scheduleLoaderHide_proper now (releaseToken_proper h₂)) _
      · split
        · refine startSubmission_proper ?_ _ _
          exact h₃.congr rfl rfl rfl rfl rfl
        · exact publishCurrent_proper h₃

theorem handleLoaded_proper {outcome : Except String Json} (h : s.form.Proper)
    (given : (Message.loaded outcome).Proper) : (s.handleLoaded outcome).Proper := by
  unfold handleLoaded
  have loaded : (s.update fun f => { f with isLoading := false }).form.Proper :=
    h.congr rfl rfl rfl rfl rfl
  refine Turn.Proper.andThen ?_ fun s' h' => publishCurrent_proper h'
  cases outcome with
  | error message => exact notify_proper loaded _ _
  | ok values =>
    refine Turn.Proper.andThen (putStore_proper loaded ?_) fun s' h' =>
      h'.congr rfl rfl rfl rfl rfl
    intro st committed
    exact Store.commit?_proper given (loaded.liveEdits _) committed

theorem handleHideLoader_proper (h : s.form.Proper) (generation : Nat) :
    (s.handleHideLoader generation).Proper := by
  unfold handleHideLoader
  split
  · apply publishCurrent_proper
    exact h.congr rfl rfl rfl rfl rfl
  · exact h

theorem handle_proper {m : Message} (h : s.form.Proper) (given : m.Proper) :
    (s.handle now m).Proper := by
  cases m with
  | ask ticket request => exact handleRequest_proper now h given ticket
  | fieldChanged path value => exact handleFieldChanged_proper now h given
  | debounceElapsed generation => exact handleDebounceElapsed_proper h generation
  | settled cycle failure => exact handleSettled_proper now h cycle failure
  | loaded outcome => exact handleLoaded_proper h given
  | hideLoader generation => exact handleHideLoader_proper h generation

end Scene

/-! ## Courses -/

theorem Turn.Proper.land {t : Turn} (h : t.Proper) : t.land.form.Proper := by
  cases t with
  | goesOn s => exact h
  | falls s => exact Scene.close_proper h

theorem Form.make_proper {c : FormConfig} (h : c.Proper) (now : Nat) : (Form.make c now).Proper := by
  refine ⟨?_, nofun, nofun, ?_, nofun⟩
  · show Store.Proper (match c.defaults with
      | .given v => .new v
      | .loaded _ _ => .new .emptyObject)
    unfold FormConfig.Proper at h
    cases defaults : c.defaults with
    | given v => exact Store.new_proper (by simpa [defaults] using h)
    | loaded => exact Store.new_proper (.obj .nil (by simp))
  · intro l load
    unfold FormConfig.Proper at h
    simp only [Form.make] at load
    cases defaults : c.defaults with
    | given v => simp [defaults] at load
    | loaded latency outcome =>
      simp only [defaults, Option.some.injEq] at load
      subst load
      simpa [defaults] using h

theorem Moment.perform?_proper {a b : Moment} {d : Deed} (h : a.perform? d = some b)
    (given : d.Proper) (proper : a.form.Proper) : b.form.Proper := by
  cases d with
  | handle =>
    obtain ⟨m, rest, mailbox, rfl⟩ := handle_eq_some h
    have message : m.Proper := proper.mailbox m (mailbox ▸ List.mem_cons_self)
    refine (Scene.handle_proper a.now ?_ message).land
    refine ⟨proper.store, proper.pending, ?_, proper.load, proper.changed⟩
    intro m' inside
    exact proper.mailbox m' (mailbox ▸ List.mem_cons_of_mem _ inside)
  | ask ticket request =>
    simp only [perform?, Option.ite_none_right_eq_some, Option.some.injEq] at h
    obtain ⟨_, rfl⟩ := h
    exact proper.post given
  | change path value =>
    cases h
    exact proper.post given
  | straggle notice =>
    simp only [perform?, Option.ite_none_right_eq_some, Option.some.injEq] at h
    obtain ⟨off, rfl⟩ := h
    refine proper.post ?_
    cases notice with
    | debounceElapsed | hideLoader => trivial
    | _ => simp [Form.hasCalledOff] at off
  | close =>
    simp only [perform?, Option.ite_none_right_eq_some, Option.some.injEq] at h
    obtain ⟨_, rfl⟩ := h
    exact Scene.close_proper proper
  | pass | stop | share =>
    cases h
    exact proper.congr rfl rfl rfl rfl rfl
  | startCall | endCall =>
    simp only [perform?, Scene.startCall?, Scene.endCallAt?, Option.map_eq_some_iff] at h
    obtain ⟨_, ⟨c, _, rfl⟩, rfl⟩ := h
    exact proper.congr rfl rfl rfl rfl rfl
  | finishRun | fireDebounce | fireHide =>
    simp only [perform?, Scene.finishRunAt?, Scene.fireDebounce?, Scene.fireHide?,
      Option.map_eq_some_iff] at h
    obtain ⟨_, ⟨_, _, rfl⟩, rfl⟩ := h
    refine Form.Proper.post ?_ trivial
    exact proper.congr rfl rfl rfl rfl rfl
  | finishLoad =>
    simp only [perform?, Scene.finishLoad?, Option.map_eq_some_iff, Option.filter_eq_some_iff] at h
    obtain ⟨_, ⟨l, ⟨load, _⟩, rfl⟩, rfl⟩ := h
    have given := proper.load l load
    have loaded : ({ a.form with load := none } : Form).Proper := by
      refine ⟨proper.store, proper.pending, proper.mailbox, ?_, proper.changed⟩
      intro l there
      cases there
    cases outcome : l.outcome with
    | panics => exact loaded
    | values v =>
      rw [outcome] at given
      exact loaded.post given
    | fails e => exact loaded.post trivial

/-- Whatever is done, a form holds proper values. -/
theorem proper {c : FormConfig} {now : Nat} {guard : UnloadGuard} {m : Moment} {log : Log}
    (course : Course (.opening c now guard) log m) (config : c.Proper)
    (deeds : ∀ x ∈ log, x.2.Proper) : m.form.Proper := by
  induction course with
  | here => exact (Scene.publishCurrent_proper (Form.make_proper config now)).land
  | next _ done ih =>
    have before := ih fun x inside => deeds x (List.mem_cons_of_mem _ inside)
    exact Moment.perform?_proper done (deeds _ List.mem_cons_self) before

end LiveForm
