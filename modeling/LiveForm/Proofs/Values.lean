import LiveForm.Proofs.Json.Tangle
import LiveForm.Proofs.Reconciliation

/-!
# What a message does to the values

Only writes, resets, loads and the success of a submission change the values of a form, its baseline
or its marks.

* `Form.storeAfter` tells what they make of it;
* `Scene.handle_store`: handling a message does that and no more, also when the form falls on the
  way;
* `Message.isQuiet`: the messages that change nothing;
* `Form.commit?_liveEdits`: what a form keeps of its edits when a new baseline is taken.
-/

set_option autoImplicit false

namespace LiveForm

open Json

/-- The success of a submission counts for the values if it had something to save and no reset has
overtaken it. -/
def Pending.counts (p : Pending) (cycle : Nat) : Bool :=
  p.cycle = cycle && p.hadDirty && !p.superseded

theorem Pending.counts_iff {p : Pending} {cycle : Nat} :
    p.counts cycle = true ↔ p.cycle = cycle ∧ p.hadDirty = true ∧ p.superseded = false := by
  simp [counts, and_assoc]

/-- The store after a message. It stays as it is where there would be none. -/
def Form.storeAfter (f : Form) : Message → Store
  | .fieldChanged path value => (f.store.set? path value true).getD f.store
  | .ask _ (.setValue path value dirty) =>
    (f.store.set? path value (dirty.getD f.setup.autoSubmit)).getD f.store
  | .ask _ (.reset values) => .reset (values.getD f.store.baseline)
  | .loaded (.ok values) => (Store.commit? values (f.liveEdits f.store.dirty.paths)).getD f.store
  | .settled cycle none =>
    match f.pending with
    | some p =>
      if p.counts cycle then
        (Store.commit? p.values (f.liveEdits f.changedDuringSubmit)).getD f.store
      else f.store
    | none => f.store
  | _ => f.store

/-- Messages that change no values, baseline or marks, whatever the form. -/
def Message.isQuiet : Message → Bool
  | .fieldChanged _ _ => false
  | .ask _ (.setValue _ _ _) => false
  | .ask _ (.reset _) => false
  | .loaded (.ok _) => false
  | .settled _ none => false
  | _ => true

/-- The values of a message that they have been loaded. -/
def Message.loaded? : Message → Option Json
  | .loaded (.ok values) => some values
  | _ => none

theorem Message.loaded?_eq_some {m : Message} {values : Json} :
    m.loaded? = some values ↔ m = .loaded (.ok values) := by
  cases m with
  | loaded outcome => cases outcome <;> simp [loaded?]
  | _ => simp [loaded?]

theorem Form.storeAfter_quiet (f : Form) {m : Message} (h : m.isQuiet = true) :
    f.storeAfter m = f.store := by
  cases m with
  | ask t request =>
    cases request with
    | setValue | reset => cases h
    | _ => rfl
  | loaded outcome =>
    cases outcome with
    | ok => cases h
    | error => rfl
  | settled cycle failure =>
    cases failure with
    | none => cases h
    | some => rfl
  | fieldChanged => cases h
  | _ => rfl

theorem Turn.andThen_store {t : Turn} {act : Scene → Turn}
    (next : ∀ s, (act s).scene.form.store = s.form.store) :
    (t.andThen act).scene.form.store = t.scene.form.store := by
  cases t with
  | goesOn s => exact next s
  | falls s => rfl

theorem Turn.Keeps.store {t : Turn} {s : Scene} (h : t.Keeps s) :
    t.scene.form.store = s.form.store := congrArg Content.store h

namespace Scene

variable (s : Scene) (now : Nat)

theorem publishCurrent_store : s.publishCurrent.scene.form.store = s.form.store :=
  (publish_keeps s s.form.phase).store

theorem putStore_store (store : Option Store) :
    (s.putStore store).scene.form.store = store.getD s.form.store := by
  cases store <;> rfl

theorem runHook_store (path : FieldPath) (value : Json) :
    (s.runHook path value).form.store = s.form.store := by
  unfold runHook
  split <;> rfl

theorem noteChanged_store (path : FieldPath) : (s.noteChanged path).form.store = s.form.store := by
  unfold noteChanged update
  dsimp only
  split <;> rfl

theorem requestSubmit_store : (s.requestSubmit now).form.store = s.form.store := by
  unfold requestSubmit update
  dsimp only
  split
  · unfold Form.post
    split <;> rfl
  · rfl

theorem defer_store (trigger : Trigger) (waiters : List Ticket) :
    (s.defer trigger waiters).form.store = s.form.store := by
  unfold defer update
  dsimp only
  split <;> rfl

theorem notify_store (key : MessageKey) (detail : String) :
    (s.notify key detail).scene.form.store = s.form.store := by
  unfold notify
  dsimp only
  split <;> rfl

/-! ## Messages -/

theorem handleFieldChanged_store (path : FieldPath) (value : Json) :
    (s.handleFieldChanged now path value).scene.form.store =
      s.form.storeAfter (.fieldChanged path value) := by
  unfold handleFieldChanged
  rw [Turn.andThen_store, putStore_store, runHook_store]
  · rfl
  · intro s'
    rw [publishCurrent_store]
    split
    · rw [requestSubmit_store, noteChanged_store]
    · exact noteChanged_store _ _

theorem handleSetValue_store (ticket : Ticket) (path : FieldPath) (value : Json)
    (dirty : Option Bool) :
    (s.handleSetValue now path value dirty).scene.form.store =
      s.form.storeAfter (.ask ticket (.setValue path value dirty)) := by
  have noted : (if dirty.getD s.form.setup.autoSubmit then s.noteChanged path
      else s).form.store = s.form.store := by
    split
    · exact noteChanged_store _ _
    · rfl
  unfold handleSetValue
  rw [Turn.andThen_store, putStore_store, noted]
  · rfl
  · intro s'
    rw [publishCurrent_store]
    split
    · exact requestSubmit_store _ _
    · rfl

theorem handleRequest_store (ticket : Ticket) (request : Request) :
    (s.handleRequest now ticket request).scene.form.store =
      s.form.storeAfter (.ask ticket request) := by
  cases request with
  | setValue path value dirty =>
    exact (Turn.andThen_store fun s' => rfl).trans (handleSetValue_store s now ticket path value dirty)
  | reset values =>
    exact (Turn.andThen_store fun s' => rfl).trans (publishCurrent_store _)
  | submit =>
    show (s.handleSubmit ticket).scene.form.store = s.form.store
    unfold handleSubmit
    split
    · exact defer_store _ _ _
    · exact (startSubmission_keeps s.cancelDebounce _ _).store
  | register path field =>
    show (s.handleRequest now ticket (.register path field)).scene.form.store = s.form.store
    unfold handleRequest
    dsimp only
    split <;> rfl
  | _ => rfl

theorem handleDebounceElapsed_store (generation : Nat) :
    (s.handleDebounceElapsed generation).scene.form.store = s.form.store := by
  unfold handleDebounceElapsed
  split
  · split
    · exact (publishCurrent_store _).trans (defer_store _ _ _)
    · exact (startSubmission_keeps s.cancelDebounce _ _).store
  · rfl

theorem acknowledge_storeAfter (p : Pending) (changed : List FieldPath) :
    (s.acknowledge p changed).scene.form.store =
      if p.counts p.cycle then (Store.commit? p.values (s.form.liveEdits changed)).getD s.form.store
      else s.form.store := by
  unfold acknowledge
  rw [Turn.andThen_store, putStore_store]
  · by_cases counts : p.counts p.cycle = true
    · obtain ⟨-, edited, current⟩ := Pending.counts_iff.mp counts
      simp [counts, edited, current]
    · have idle : (p.superseded || !p.hadDirty) = true := by
        cases edited : p.hadDirty with
        | false => simp
        | true =>
          cases overtaken : p.superseded with
          | true => rfl
          | false => exact absurd (Pending.counts_iff.mpr ⟨rfl, edited, overtaken⟩) counts
      simp [counts, idle]
  · intro s'
    exact congrArg Content.store (answerAll_content _ _ _)

theorem reject_store (p : Pending) (e : SubmitError) :
    (s.reject p e).scene.form.store = s.form.store := by
  unfold reject
  rw [Turn.andThen_store, notify_store]
  · rfl
  · intro s'
    exact congrArg Content.store (answerAll_content _ _ _)

theorem handleSettled_storeAfter (cycle : Nat) (failure : Option SubmitError) :
    (s.handleSettled now cycle failure).scene.form.store =
      s.form.storeAfter (.settled cycle failure) := by
  unfold handleSettled
  split
  · rename_i none
    cases failure with
    | none => simp [Form.storeAfter, none, Turn.scene]
    | some => rfl
  · rename_i p flight
    split
    · rename_i other
      cases failure with
      | none => simp [Form.storeAfter, flight, Pending.counts, other, Turn.scene]
      | some => rfl
    · rename_i same
      obtain rfl : p.cycle = cycle := Decidable.not_not.mp same
      rw [Turn.andThen_store]
      · cases failure with
        | none =>
          refine (acknowledge_storeAfter _ p _).trans ?_
          simp only [Form.storeAfter, flight]
          rfl
        | some e => exact reject_store _ p e
      · intro s'
        rw [Turn.andThen_store]
        · have hidden : (s'.releaseToken.scheduleLoaderHide now).form.content = s'.form.content := by
            rw [scheduleLoaderHide_content, releaseToken_content]
          exact (publish_keeps _ _).store.trans (congrArg Content.store hidden)
        · intro s''
          split
          · exact (startSubmission_keeps _ _ _).store
          · exact publishCurrent_store _

theorem handleLoaded_store (outcome : Except String Json) :
    (s.handleLoaded outcome).scene.form.store = s.form.storeAfter (.loaded outcome) := by
  unfold handleLoaded
  rw [Turn.andThen_store publishCurrent_store]
  cases outcome with
  | ok values =>
    exact (Turn.andThen_store fun s' => rfl).trans (putStore_store _ _)
  | error message => exact notify_store _ _ _

theorem handleHideLoader_store (generation : Nat) :
    (s.handleHideLoader generation).scene.form.store = s.form.store := by
  unfold handleHideLoader
  split
  · exact publishCurrent_store _
  · rfl

/-- What a message does to the values, the baseline and the marks, however its turn ends. -/
theorem handle_store (m : Message) :
    (s.handle now m).land.form.store = s.form.storeAfter m := by
  refine (congrArg Content.store (Turn.Ends.land_content _)).trans ?_
  cases m with
  | ask ticket request => exact handleRequest_store s now ticket request
  | fieldChanged path value => exact handleFieldChanged_store s now path value
  | debounceElapsed generation => exact handleDebounceElapsed_store s generation
  | settled cycle failure => exact handleSettled_storeAfter s now cycle failure
  | loaded outcome => exact handleLoaded_store s outcome
  | hideLoader generation => exact handleHideLoader_store s generation

end Scene

/-! ## Edits on a new baseline -/

/-- The live values of some paths are put onto a new baseline. It can be done if none of the paths
names the last index, and a path that is tangled with no other keeps its value. -/
theorem Form.commit?_liveEdits {f : Form} {paths : List FieldPath} (base : Json) (holds : f.Proper)
    (each : ∀ q ∈ paths, f.store.values.has q = true → q.segments ≠ [] ∧
      ∀ s ∈ q.segments, FieldPath.index? s ≠ some FieldPath.lastIndex) :
    ∃ store, Store.commit? base (f.liveEdits paths) = some store ∧
      store.baseline = Store.rooted base ∧
      ∀ p ∈ paths, ∀ v, f.store.get? p = some v →
        (∀ q ∈ paths, q ≠ p → f.store.values.has q = true →
          tangled f.store.values (some (Store.rooted base)) p.segments q.segments = false) →
        store.get? p = some v := by
  have there {e : FieldPath × Json} (inside : e ∈ f.liveEdits paths) :
      e.1 ∈ paths ∧ f.store.values.has e.1 = true ∧ f.store.values.get? e.1 = some e.2 := by
    obtain ⟨among, live⟩ := Form.mem_liveEdits.mp inside
    exact ⟨among, Option.isSome_iff_exists.mpr ⟨_, live⟩, live⟩
  obtain ⟨store, committed, baseline, keeps⟩ :=
    Store.commit?_untangled base (f.liveEdits paths) holds.store.values.proper fun e inside => by
      obtain ⟨among, has, live⟩ := there inside
      exact ⟨(each _ among has).1, live, (each _ among has).2⟩
  refine ⟨store, committed, baseline, ?_⟩
  intro p among v live clear
  refine keeps (p, v) (Form.mem_liveEdits.mpr ⟨among, live⟩) fun e inside other => ?_
  obtain ⟨among', has, -⟩ := there inside
  exact clear e.1 among' other has

/-! ## Deeds -/

namespace Moment

variable {a b : Moment} {d : Deed}

/-- Handling a message makes of the store what is told of it. -/
theorem handles_store (h : a.perform? d = some b) {m : Message} (handles : a.act d = .handles m) :
    b.form.store = a.form.storeAfter m := by
  obtain ⟨rest, _, done⟩ := perform?_of_handles handles
  obtain rfl := Option.some.inj (h.symm.trans done)
  exact Scene.handle_store (a.scene.update fun f => { f with mailbox := rest }) a.now m

theorem post_store (f : Form) (m : Message) : (f.post m).store = f.store := by
  unfold Form.post
  split <;> rfl

/-- Only messages change the store. -/
theorem perform?_store (h : a.perform? d = some b) (aside : ∀ m, a.act d ≠ .handles m) :
    b.form.store = a.form.store := by
  cases d with
  | handle =>
    obtain ⟨m, rest, mailbox, _⟩ := handle_eq_some h
    exact absurd (by simp [act, mailbox]) (aside m)
  | close =>
    simp only [perform?, Option.ite_none_right_eq_some, Option.some.injEq] at h
    obtain ⟨_, rfl⟩ := h
    exact congrArg Content.store a.scene.releaseToken_content
  | pass | stop | share =>
    cases h
    rfl
  | change =>
    cases h
    exact post_store _ _
  | ask | straggle =>
    simp only [perform?, Option.ite_none_right_eq_some, Option.some.injEq] at h
    obtain ⟨_, rfl⟩ := h
    exact post_store _ _
  | startCall | endCall =>
    simp only [perform?, Scene.startCall?, Scene.endCallAt?, Option.map_eq_some_iff] at h
    obtain ⟨_, ⟨c, _, rfl⟩, rfl⟩ := h
    rfl
  | finishRun | fireDebounce | fireHide =>
    simp only [perform?, Scene.finishRunAt?, Scene.fireDebounce?, Scene.fireHide?,
      Option.map_eq_some_iff] at h
    obtain ⟨_, ⟨_, _, rfl⟩, rfl⟩ := h
    exact post_store _ _
  | finishLoad =>
    simp only [perform?, Scene.finishLoad?, Option.map_eq_some_iff] at h
    obtain ⟨_, ⟨l, _, rfl⟩, rfl⟩ := h
    cases l.outcome with
    | panics => rfl
    | values | fails => exact post_store _ _

end Moment

end LiveForm
