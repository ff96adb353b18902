import Mathlib.Algebra.Ring.Nat
import LiveForm.Proofs.Assoc
import LiveForm.Proofs.Execution
import LiveForm.Proofs.Frame

/-!
# How much a form has left to do

* `Form.cost`: what a form has in hand, each thing at its price;
* `Tariff.Fair`: a message is worth what it can lead to, and so are timers, loads and runs;
* `Scene.tick?_cost`: under a fair tariff each step takes its price from what the form costs.
-/

set_option autoImplicit false

namespace LiveForm

/-- Prices of what a form has in hand. -/
structure Tariff where
  field : Nat
  message : Message → Nat
  run : Run → Nat
  deferred : Nat
  debounce : Timer → Nat
  hide : Timer → Nat
  load : Load → Nat
  stop : Nat

def Form.cost (p : Tariff) (f : Form) : Nat :=
  p.field * f.registry.size + (f.mailbox.map p.message).sum + (f.runs.map p.run).sum +
    (f.deferred.elim 0 fun _ => p.deferred) + f.debounce.timer.elim 0 p.debounce +
    f.loader.hideTimer.elim 0 p.hide + f.load.elim 0 p.load +
    (bif f.stopRequested then p.stop else 0)

/-- Edits in a field and writes from outside. -/
def Message.isEdit : Message → Bool
  | .ask _ (.setValue _ _ _) => true
  | .fieldChanged _ _ => true
  | _ => false

/-- Messages that a submission can start from, or be put off. -/
def Message.isUrge : Message → Bool
  | .ask _ .submit => true
  | .debounceElapsed _ => true
  | _ => false

/-- Of all that comes of a thing at time `now`, the price is that of the thing, less `step`; of what
comes of a thing that was due, it is less `late`. Cycles make at most so many calls. -/
structure Tariff.Fair (p : Tariff) (now calls step late : Nat) : Prop where
  more : step ≤ late
  message : ∀ m, step ≤ p.message m
  registration : ∀ t path field, step + p.field ≤ p.message (.ask t (.register path field))
  edit : ∀ m, m.isEdit = true → (∀ t, step + p.debounce t ≤ p.message m) ∧
    ∀ g, step + p.message (.debounceElapsed g) ≤ p.message m
  urge : ∀ m, m.isUrge = true → step + p.deferred ≤ p.message m
  deferred : ∀ r : Run, r.calls.length ≤ calls → (∀ c ∈ r.calls, c.state = .waiting) →
    p.run r ≤ p.deferred
  settled : ∀ cycle failure t, now < t.due → step + p.hide t ≤ p.message (.settled cycle failure)
  start : ∀ r : Run, r.isFresh = true → p.run (r.start now) + step ≤ p.run r
  ending : ∀ (r : Run) k c, r.calls[k]? = some c → c.isDue now = true →
    p.run { r with calls := r.calls.set k { c with state := .ended } } + late ≤ p.run r
  finished : ∀ (r : Run) failure, r.isFinished = true →
    p.message (.settled r.cycle failure) + step ≤ p.run r
  debounce : ∀ t, t.due ≤ now → p.message (.debounceElapsed t.generation) + late ≤ p.debounce t
  hide : ∀ t, t.due ≤ now → p.message (.hideLoader t.generation) + late ≤ p.hide t
  load : ∀ l outcome, l.due ≤ now → p.message (.loaded outcome) + late ≤ p.load l
  stop : step ≤ p.stop

/-! ## Registries -/

namespace Registry

variable {ℓ η : Type} (r : Registry ℓ η)

theorem unregister_size (paths : List FieldPath) : (r.unregister paths).size ≤ r.size := by
  unfold unregister size
  generalize r.fields = fields
  induction paths generalizing fields with
  | nil => exact Nat.le_refl _
  | cons p rest ih => exact Nat.le_trans (ih _) (List.length_filter_le _ _)

theorem register_size {r' : Registry ℓ η} {path : FieldPath} {field : Field ℓ η} {schema : Json}
    (h : r.register path field schema = .ok r') : r'.size ≤ r.size + 1 := by
  unfold register at h
  split at h
  · cases h
    exact Assoc.length_insert_le _ _ _
  · cases h

end Registry

/-! ## Sums -/

section Sums

variable {α : Type} (price : α → Nat)

theorem sum_set {xs : List α} {i : Nat} {x : α} (found : xs[i]? = some x) (y : α) :
    ((xs.set i y).map price).sum + price x = (xs.map price).sum + price y := by
  induction xs generalizing i with
  | nil => cases found
  | cons z rest ih =>
    cases i with
    | zero =>
      cases found
      simp only [List.set_cons_zero, List.map_cons, List.sum_cons]
      omega
    | succ i =>
      have others := ih (i := i) found
      simp only [List.set_cons_succ, List.map_cons, List.sum_cons]
      omega

theorem sum_eraseIdx {xs : List α} {i : Nat} {x : α} (found : xs[i]? = some x) :
    ((xs.eraseIdx i).map price).sum + price x = (xs.map price).sum := by
  induction xs generalizing i with
  | nil => cases found
  | cons z rest ih =>
    cases i with
    | zero =>
      cases found
      simp only [List.eraseIdx_cons_zero, List.map_cons, List.sum_cons]
      omega
    | succ i =>
      have others := ih (i := i) found
      simp only [List.eraseIdx_cons_succ, List.map_cons, List.sum_cons]
      omega

/-- What is marked has lost something. -/
theorem sum_add_le (mark : α → Nat) {xs ys : List α}
    (length : xs.length = ys.length)
    (each : ∀ (i : Nat) (x y : α), xs[i]? = some x → ys[i]? = some y → price y + mark x ≤ price x) :
    (ys.map price).sum + (xs.map mark).sum ≤ (xs.map price).sum := by
  induction xs generalizing ys with
  | nil =>
    obtain rfl := List.length_eq_zero_iff.mp length.symm
    exact Nat.le_refl _
  | cons x xs ih =>
    cases ys with
    | nil => cases length
    | cons y ys =>
      have first := each 0 x y rfl rfl
      have others := ih (Nat.succ.inj length) fun i => each (i + 1)
      simp only [List.map_cons, List.sum_cons]
      omega

end Sums

/-! ## Acts -/

section Acts

variable {p : Tariff} {now calls step late : Nat} {s : Scene} {f : Form} {m : Message}

theorem cost_remote (p : Tariff) : Form.Remote (Form.cost p) := fun _ => rfl

theorem registry_remote : Form.Remote Form.registry := fun _ => rfl

theorem Form.post_cost (f : Form) (m : Message) : (f.post m).cost p ≤ f.cost p + p.message m := by
  unfold Form.post
  split
  · simp only [cost, List.map_append, List.sum_append, List.map_singleton, List.sum_singleton]
    omega
  · omega

/-- A registry of a different size makes a difference of so many fields. -/
theorem Form.registry_cost {r : Registry Listener Hook} {n : Nat}
    (size : r.size ≤ f.registry.size + n) :
    { f with registry := r }.cost p ≤ f.cost p + p.field * n := by
  have fields := Nat.mul_le_mul_left p.field size
  rw [Nat.mul_add] at fields
  simp only [cost]
  omega

/-- A further act adds to what there is, unless the form has fallen. -/
theorem Turn.andThen_cost {t : Turn} {act : Scene → Turn} {n k : Nat}
    (first : t.scene.form.cost p ≤ n)
    (next : ∀ s', t = .goesOn s' → s'.form.cost p ≤ n → (act s').scene.form.cost p ≤ n + k) :
    (t.andThen act).scene.form.cost p ≤ n + k := by
  cases t with
  | goesOn s' => exact next s' rfl first
  | falls s' => exact Nat.le_trans first (Nat.le_add_right n k)

namespace Scene

theorem cancelDebounce_cost : s.cancelDebounce.form.cost p ≤ s.form.cost p := by
  simp only [cancelDebounce, update, Form.cost, Option.elim_none]
  omega

theorem close_cost : s.close.form.cost p + (bif s.form.stopRequested then p.stop else 0) ≤
    s.form.cost p := by
  rw [close, update, releaseToken_form]
  simp only [Form.cost, List.map_nil, List.sum_nil, Option.elim_none, cond_false]
  omega

theorem land_cost (t : Turn) : t.land.form.cost p ≤ t.scene.form.cost p := by
  cases t with
  | goesOn s => exact Nat.le_refl _
  | falls s => exact Nat.le_trans (Nat.le_add_right _ _) close_cost

theorem publish_cost {n : Nat} (h : s.form.cost p ≤ n) (phase : FormPhase) :
    (s.publish phase).scene.form.cost p ≤ n :=
  Nat.le_trans (Nat.le_of_eq (publish_remote (cost_remote p) s phase)) h

theorem publishCurrent_cost {n : Nat} (h : s.form.cost p ≤ n) :
    s.publishCurrent.scene.form.cost p ≤ n :=
  publish_cost h _

theorem requestSubmit_cost (fair : p.Fair now calls step late) (edit : m.isEdit = true) :
    (s.requestSubmit now).form.cost p ≤ s.form.cost p + (p.message m - step) := by
  obtain ⟨timer, notice⟩ := fair.edit m edit
  unfold requestSubmit update
  dsimp only
  split
  · have worth := notice (s.form.debounce.generation + 1)
    refine Nat.le_trans (Form.post_cost _ _) ?_
    simp only [Form.cost, Option.elim_none]
    omega
  · rename_i wait _
    have worth := timer ⟨now + wait, s.form.debounce.generation + 1⟩
    simp only [Form.cost, Option.elim_some]
    omega

theorem defer_cost (trigger : Trigger) (waiters : List Ticket) :
    (s.defer trigger waiters).form.cost p ≤ s.form.cost p + p.deferred := by
  unfold defer update
  dsimp only
  split
  · simp only [Form.cost, Option.elim_some]
    omega
  · simp only [Form.cost, Option.elim_some]
    omega

theorem scheduleLoaderHide_cost (fair : p.Fair now calls step late) (cycle : Nat)
    (failure : Option SubmitError) : (s.scheduleLoaderHide now).form.cost p ≤
      s.form.cost p + (p.message (.settled cycle failure) - step) := by
  unfold scheduleLoaderHide update
  dsimp only
  split
  · exact Nat.le_add_right _ _
  · rename_i delay
    have worth := fair.settled cycle failure
      ⟨now + s.form.setup.loaderDelay, s.form.loader.generation⟩ (by dsimp only; omega)
    simp only [Form.cost, Option.elim_some]
    omega

theorem scheduleLoaderHide_registry :
    (s.scheduleLoaderHide now).form.registry = s.form.registry := by
  unfold scheduleLoaderHide update
  dsimp only
  split <;> rfl

/-- A cycle calls the listeners of fields and the handler. -/
theorem nextRun_length (f : Form) (trigger : Trigger) :
    (f.nextRun trigger).calls.length ≤ f.registry.size + 1 := by
  have listeners : f.listenerCalls.length ≤ f.registry.size :=
    Nat.le_trans (List.length_filterMap_le _ _) (List.length_filterMap_le _ _)
  have handler : (f.handlerCall trigger).length ≤ 1 := by
    unfold Form.handlerCall
    split <;> simp
  rw [Form.nextRun, List.length_append]
  omega

theorem beginCycle_cost (fair : p.Fair now calls step late)
    (room : s.form.registry.size + 1 ≤ calls) (trigger : Trigger) (waiters : List Ticket) :
    (s.beginCycle trigger waiters).scene.form.cost p ≤ s.form.cost p + p.deferred := by
  have price : p.run (s.form.nextRun trigger) ≤ p.deferred :=
    fair.deferred _ (Nat.le_trans (nextRun_length _ _) room) (nextRun_fresh _ _)
  unfold beginCycle
  dsimp only
  refine Turn.andThen_cost (publish_cost ?_ _) fun s' _ shown => ?_
  · rw [log_remote (cost_remote p)]
    simp [Form.cost, acquireToken, update, showLoader, Form.countCalls, Registry.size]
  · simp only [Turn.scene, Form.cost, update, List.map_append, List.sum_append,
      List.map_singleton, List.sum_singleton] at shown ⊢
    omega

theorem startSubmission_cost (fair : p.Fair now calls step late)
    (room : s.form.registry.size + 1 ≤ calls) (trigger : Trigger) (waiters : List Ticket) :
    (s.startSubmission trigger waiters).scene.form.cost p ≤ s.form.cost p + p.deferred := by
  unfold startSubmission
  dsimp only
  split
  · exact beginCycle_cost fair room trigger waiters
  · have same := s.halt_remote (cost_remote p) trigger waiters
      (s.form.registry.validate s.form.store.values)
    exact Nat.le_trans (Nat.le_of_eq same) (Nat.le_add_right _ _)

/-! ## The handling of messages -/

/-- An edit asks for a submission, or it does not. -/
theorem edit_cost (fair : p.Fair now calls step late) (edit : m.isEdit = true) (asks : Bool) :
    ((if asks then s.requestSubmit now else s).publishCurrent).scene.form.cost p ≤
      s.form.cost p + (p.message m - step) := by
  refine publishCurrent_cost ?_
  split
  · exact requestSubmit_cost fair edit
  · exact Nat.le_add_right _ _

theorem handleFieldChanged_cost (fair : p.Fair now calls step late) (path : FieldPath)
    (value : Json) : (s.handleFieldChanged now path value).scene.form.cost p ≤
      s.form.cost p + (p.message (.fieldChanged path value) - step) := by
  refine Turn.andThen_cost (Nat.le_of_eq ?_) fun s' _ put => ?_
  · exact (putStore_remote (cost_remote p) _ _).trans (runHook_remote (cost_remote p) _ _ _)
  · have noted := noteChanged_remote (cost_remote p) s' path
    have cost := edit_cost (s := s'.noteChanged path) (m := .fieldChanged path value) fair rfl
      (s'.noteChanged path).form.setup.autoSubmit
    rw [noted] at cost
    exact Nat.le_trans cost (Nat.add_le_add_right put _)

theorem handleSetValue_cost (fair : p.Fair now calls step late) (ticket : Ticket) (path : FieldPath)
    (value : Json) (dirty : Option Bool) :
    (s.handleSetValue now path value dirty).scene.form.cost p ≤
      s.form.cost p + (p.message (.ask ticket (.setValue path value dirty)) - step) := by
  refine Turn.andThen_cost (Nat.le_of_eq ((putStore_remote (cost_remote p) _ _).trans ?_))
    fun s' _ put => ?_
  · split
    · exact noteChanged_remote (cost_remote p) s path
    · rfl
  · exact Nat.le_trans (edit_cost fair rfl _) (Nat.add_le_add_right put _)

theorem handleSubmit_cost (fair : p.Fair now calls step late)
    (room : s.form.registry.size + 1 ≤ calls) (ticket : Ticket) :
    (s.handleSubmit ticket).scene.form.cost p ≤ s.form.cost p + p.deferred := by
  unfold handleSubmit
  split
  · exact defer_cost _ _
  · refine Nat.le_trans (startSubmission_cost (s := s.cancelDebounce) fair room _ _) ?_
    exact Nat.add_le_add_right cancelDebounce_cost _

theorem handleReset_cost (values : Option Json) :
    (s.handleReset values).scene.form.cost p ≤ s.form.cost p := by
  refine publishCurrent_cost (Nat.le_trans (Nat.le_of_eq ?_) (cancelDebounce_cost (s := s)))
  simp only [update, Form.cost]

theorem handleRequest_cost (fair : p.Fair now calls step late)
    (room : s.form.registry.size + 1 ≤ calls) (ticket : Ticket) (request : Request) :
    (s.handleRequest now ticket request).scene.form.cost p ≤
      s.form.cost p + (p.message (.ask ticket request) - step) := by
  have still : s.form.cost p ≤ s.form.cost p + (p.message (.ask ticket request) - step) :=
    Nat.le_add_right _ _
  cases request with
  | getValue | getValues | getDirtyValues | getState | getSubmitButton => exact still
  | submit =>
    have worth := fair.urge (.ask ticket .submit) rfl
    have cost := handleSubmit_cost fair room ticket
    simp only [handleRequest]
    omega
  | reset values =>
    exact Turn.andThen_cost (handleReset_cost values) fun s' _ cost => Nat.le_trans cost still
  | setValue path value dirty =>
    exact Turn.andThen_cost (k := 0) (handleSetValue_cost fair ticket path value dirty)
      fun s' _ cost => cost
  | unregister paths =>
    cases paths with
    | none =>
      exact Nat.le_trans (Form.registry_cost (f := s.form) (r := .empty) (n := 0) (Nat.zero_le _))
        still
    | some paths =>
      exact Nat.le_trans
        (Form.registry_cost (f := s.form) (n := 0) (s.form.registry.unregister_size paths)) still
  | register path field =>
    have worth := fair.registration ticket path field
    simp only [handleRequest]
    split
    · rename_i registry registered
      have cost := Form.registry_cost (p := p) (s.form.registry.register_size registered)
      refine Nat.le_trans cost ?_
      omega
    · exact still

theorem handleDebounceElapsed_cost (fair : p.Fair now calls step late)
    (room : s.form.registry.size + 1 ≤ calls) (generation : Nat) :
    (s.handleDebounceElapsed generation).scene.form.cost p ≤ s.form.cost p + p.deferred := by
  have off := cancelDebounce_cost (p := p) (s := s)
  unfold handleDebounceElapsed
  split
  · split
    · have later := defer_cost (p := p) (s := s.cancelDebounce) .auto []
      exact publishCurrent_cost (Nat.le_trans later (Nat.add_le_add_right off _))
    · have starts := startSubmission_cost (s := s.cancelDebounce) fair room .auto []
      exact Nat.le_trans starts (Nat.add_le_add_right off _)
  · exact Nat.le_add_right _ _

/-- The submission put off is worth what was put by for it. -/
theorem startDeferred_cost (fair : p.Fair now calls step late)
    (room : s.form.registry.size + 1 ≤ calls) {d : Deferred} (waiting : s.form.deferred = some d) :
    ((s.update fun f => { f with deferred := none }).startSubmission d.trigger
      d.waiters).scene.form.cost p ≤ s.form.cost p := by
  refine Nat.le_trans (startSubmission_cost (s := s.update fun f => { f with deferred := none })
    fair room _ _) ?_
  simp only [update, Form.cost, waiting, Option.elim_some, Option.elim_none]
  omega

theorem handleSettled_cost (fair : p.Fair now calls step late)
    (room : s.form.registry.size + 1 ≤ calls) (cycle : Nat) (failure : Option SubmitError) :
    (s.handleSettled now cycle failure).scene.form.cost p ≤
      s.form.cost p + (p.message (.settled cycle failure) - step) := by
  have still : s.form.cost p ≤ s.form.cost p + (p.message (.settled cycle failure) - step) :=
    Nat.le_add_right _ _
  unfold handleSettled
  split
  · exact still
  split
  · exact still
  generalize landed : (s.update fun f => { f with pending := none, changedDuringSubmit := [] }).log
    (.settled cycle failure) = s₀
  have same : s₀.form.cost p = s.form.cost p ∧ s₀.form.registry = s.form.registry := by
    subst landed
    exact ⟨rfl, rfl⟩
  refine Turn.andThen_cost (Nat.le_of_eq ?_) fun s₁ answered told => ?_
  · cases failure with
    | none => exact (acknowledge_remote (cost_remote p) _ _ _).trans same.1
    | some e => exact (reject_remote (cost_remote p) _ _ _).trans same.1
  have registry₁ : s₁.form.registry = s.form.registry := by
    cases failure with
    | none => exact ((acknowledge_remote registry_remote _ _ _).goesOn answered).trans same.2
    | some e => exact ((reject_remote registry_remote _ _ _).goesOn answered).trans same.2
  have freed : (s₁.releaseToken.scheduleLoaderHide now).form.cost p ≤
      s.form.cost p + (p.message (.settled cycle failure) - step) := by
    have hidden := scheduleLoaderHide_cost (s := s₁.releaseToken) fair cycle failure
    rw [releaseToken_remote (cost_remote p)] at hidden
    omega
  refine Turn.andThen_cost (k := 0) (publish_cost freed _) fun s₂ shown within => ?_
  have registry₂ : s₂.form.registry = s.form.registry := by
    refine ((publish_remote registry_remote _ _).goesOn shown).trans ?_
    rw [scheduleLoaderHide_registry, releaseToken_remote registry_remote, registry₁]
  split
  · rename_i d waiting
    exact Nat.le_trans (startDeferred_cost fair (registry₂ ▸ room) waiting) within
  · exact publishCurrent_cost within

theorem handleLoaded_cost (outcome : Except String Json) :
    (s.handleLoaded outcome).scene.form.cost p ≤ s.form.cost p := by
  refine Turn.andThen_cost (k := 0) ?_ fun s' _ taken => publishCurrent_cost taken
  cases outcome with
  | error message => exact Nat.le_of_eq (notify_remote (cost_remote p) _ _ _)
  | ok values =>
    refine Turn.andThen_cost (k := 0) (Nat.le_of_eq (putStore_remote (cost_remote p) _ _))
      fun s' _ put => Nat.le_trans (Form.registry_cost (n := 0) ?_) put
    exact Registry.unregister_size _ _

theorem handleHideLoader_cost (generation : Nat) :
    (s.handleHideLoader generation).scene.form.cost p ≤ s.form.cost p := by
  unfold handleHideLoader
  split
  · refine publishCurrent_cost ?_
    simp only [update, Form.cost, Option.elim_none]
    omega
  · exact Nat.le_refl _

/-- What comes of a message is worth no more than the message. -/
theorem handle_cost (fair : p.Fair now calls step late)
    (room : s.form.registry.size + 1 ≤ calls) (m : Message) :
    (s.handle now m).scene.form.cost p ≤ s.form.cost p + (p.message m - step) := by
  cases m with
  | ask ticket request => exact handleRequest_cost fair room ticket request
  | fieldChanged path value => exact handleFieldChanged_cost fair path value
  | debounceElapsed generation =>
    have worth := fair.urge (.debounceElapsed generation) rfl
    have cost := handleDebounceElapsed_cost fair room generation
    simp only [handle]
    omega
  | settled cycle failure => exact handleSettled_cost fair room cycle failure
  | loaded outcome => exact Nat.le_trans (handleLoaded_cost outcome) (Nat.le_add_right _ _)
  | hideLoader generation =>
    exact Nat.le_trans (handleHideLoader_cost generation) (Nat.le_add_right _ _)

/-! ## Steps -/

variable {s' : Scene}

theorem handleNext?_cost (fair : p.Fair now calls step late)
    (room : s.form.registry.size + 1 ≤ calls) (h : s.handleNext? now = some s') :
    s'.form.cost p + step ≤ s.form.cost p := by
  unfold handleNext? at h
  split at h
  · cases h
  · rename_i m rest mailbox
    cases h
    have worth := fair.message m
    have cost := handle_cost (s := s.update fun f => { f with mailbox := rest }) fair room m
    have landed := land_cost (p := p) ((s.update fun f => { f with mailbox := rest }).handle now m)
    have taken : s.form.cost p =
        (s.update fun f => { f with mailbox := rest }).form.cost p + p.message m := by
      simp only [Form.cost, update, mailbox, List.map_cons, List.sum_cons]
      omega
    omega

theorem tellStarts_cost (s : Scene) (calls : List Call) :
    (s.tellStarts calls).form.cost p = s.form.cost p := by
  unfold tellStarts
  induction calls generalizing s with
  | nil => rfl
  | cons c rest ih => exact (ih _).trans (log_remote (cost_remote p) s _)

/-- A run in place of another makes the difference of the two. -/
theorem putRun_cost {i : Nat} {r : Run} (found : s.form.runs[i]? = some r) (r' : Run) :
    (s.putRun i r').form.cost p + p.run r = s.form.cost p + p.run r' := by
  have runs := sum_set p.run found r'
  simp only [putRun, update, Form.cost]
  omega

theorem startRun?_cost (fair : p.Fair now calls step late) (h : s.startRun? now = some s') :
    s'.form.cost p + step ≤ s.form.cost p := by
  obtain ⟨i, r, found, fresh, rfl⟩ := startRun?_eq_some h
  have worth := fair.start r fresh
  have put := putRun_cost (p := p) found (r.start now)
  rw [tellStarts_cost]
  omega

theorem endCall?_cost (fair : p.Fair now calls step late) (h : s.endCall? now = some s') :
    s'.form.cost p + late ≤ s.form.cost p := by
  obtain ⟨i, r, k, c, found, call, due, rfl, -⟩ := endCall?_eq_some h
  have worth := fair.ending r k c call due
  have put := putRun_cost (p := p) found
    { r with calls := r.calls.set k { c with state := .ended } }
  rw [log_remote (cost_remote p)]
  omega

theorem finishRun?_cost (fair : p.Fair now calls step late) (h : s.finishRun? = some s') :
    s'.form.cost p + step ≤ s.form.cost p := by
  obtain ⟨⟨r, runs⟩, ends, rfl⟩ := Option.map_eq_some_iff.mp h
  obtain ⟨i, found, finished, rfl⟩ := Form.finishFirst?_eq_some ends
  have worth := fair.finished r r.failure? finished
  have left := sum_eraseIdx p.run found
  have posted := Form.post_cost (p := p) { s.form with runs := s.form.runs.eraseIdx i }
    (.settled r.cycle r.failure?)
  simp only [update, Form.cost] at posted ⊢
  omega

theorem fireDebounce?_cost (fair : p.Fair now calls step late) (h : s.fireDebounce? now = some s') :
    s'.form.cost p + late ≤ s.form.cost p := by
  obtain ⟨t, timer, rfl⟩ := Option.map_eq_some_iff.mp h
  obtain ⟨set, due⟩ := Option.filter_eq_some_iff.mp timer
  have worth := fair.debounce t (of_decide_eq_true due)
  have posted := Form.post_cost (p := p)
    { s.form with debounce := { s.form.debounce with timer := none } }
    (.debounceElapsed t.generation)
  simp only [update, Form.cost, set, Option.elim_some, Option.elim_none] at posted ⊢
  omega

theorem fireHide?_cost (fair : p.Fair now calls step late) (h : s.fireHide? now = some s') :
    s'.form.cost p + late ≤ s.form.cost p := by
  obtain ⟨t, timer, rfl⟩ := Option.map_eq_some_iff.mp h
  obtain ⟨set, due⟩ := Option.filter_eq_some_iff.mp timer
  have worth := fair.hide t (of_decide_eq_true due)
  have posted := Form.post_cost (p := p)
    { s.form with loader := { s.form.loader with hideTimer := none } } (.hideLoader t.generation)
  simp only [update, Form.cost, set, Option.elim_some, Option.elim_none] at posted ⊢
  omega

theorem finishLoad?_cost (fair : p.Fair now calls step late) (h : s.finishLoad? now = some s') :
    s'.form.cost p + late ≤ s.form.cost p := by
  obtain ⟨l, load, rfl⟩ := Option.map_eq_some_iff.mp h
  obtain ⟨set, due⟩ := Option.filter_eq_some_iff.mp load
  have worth (outcome : Except String Json) := fair.load l outcome (of_decide_eq_true due)
  have ended : { s.form with load := none }.cost p + p.load l = s.form.cost p := by
    simp only [Form.cost, set, Option.elim_some, Option.elim_none]
    omega
  dsimp only [update]
  split
  · rename_i m message
    obtain ⟨outcome, rfl⟩ : ∃ outcome, m = .loaded outcome := by
      cases same : l.outcome <;> rw [same] at message <;> cases message <;> exact ⟨_, rfl⟩
    refine Nat.le_trans (Nat.add_le_add_right (Form.post_cost _ _) late) ?_
    rw [← ended, Nat.add_assoc]
    exact Nat.add_le_add_left (worth outcome) _
  · rw [← ended]
    exact Nat.add_le_add_left (Nat.le_trans (Nat.le_add_left late _) (worth (.error ""))) _

/-- Each step takes its price from what the form costs. -/
theorem tick?_cost (fair : p.Fair now calls step late) (room : s.form.registry.size + 1 ≤ calls)
    (h : s.tick? now = some s') : s'.form.cost p + step ≤ s.form.cost p := by
  unfold tick? at h
  split at h
  · rename_i stop
    cases h
    have closed := close_cost (p := p) (s := s)
    have worth := fair.stop
    rw [stop, cond_true] at closed
    omega
  · rcases orElse_eq_some h with next | h
    · exact handleNext?_cost fair room next
    rcases orElse_eq_some h with next | h
    · exact startRun?_cost fair next
    rcases orElse_eq_some h with next | h
    · exact Nat.le_trans (Nat.add_le_add_left fair.more _) (endCall?_cost fair next)
    rcases orElse_eq_some h with next | h
    · exact finishRun?_cost fair next
    rcases orElse_eq_some h with next | h
    · exact Nat.le_trans (Nat.add_le_add_left fair.more _) (fireDebounce?_cost fair next)
    rcases orElse_eq_some h with next | next
    · exact Nat.le_trans (Nat.add_le_add_left fair.more _) (fireHide?_cost fair next)
    · exact Nat.le_trans (Nat.add_le_add_left fair.more _) (finishLoad?_cost fair next)

end Scene

end Acts

end LiveForm
