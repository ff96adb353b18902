import LiveForm.Proofs.Frame
import LiveForm.Proofs.Ledger
import LiveForm.Proofs.Standing

/-!
# What a form does to its loader

* `Form.lamp`: the loader, beside what decides when it is to be shown and hidden;
* `Form.cue`: what a message means for the loader, a notice to hide it or the end of the submission in
  flight;
* `Lamp.Handles`: all that a message can do to the lamp of a form that lives on;
* `Moment.perform?_lamp`: with the notices of timers, all that a deed can do to it.
-/

set_option autoImplicit false

namespace LiveForm

/-- The notices are those in the mailbox that are to hide the loader, by their generations. -/
structure Lamp where
  flying : Bool
  cycles : Nat
  delay : Nat
  loader : Loader
  notices : List Nat

/-- What a message means for the loader. -/
inductive Cue where
  | other
  | hide (generation : Nat)
  | land
  deriving DecidableEq

namespace Form

def lamp (f : Form) : Lamp where
  flying := f.pending.isSome
  cycles := f.cycles
  delay := f.setup.loaderDelay
  loader := f.loader
  notices := f.mailbox.filterMap Message.hides?

def cue (f : Form) : Message → Cue
  | .hideLoader generation => .hide generation
  | .settled cycle _ => if f.pending.any fun p => p.cycle = cycle then .land else .other
  | _ => .other

end Form

namespace Lamp

def begin (l : Lamp) : Lamp :=
  { l with
    flying := true
    cycles := l.cycles + 1
    loader := ⟨true, l.loader.generation + 1, none⟩ }

/-- The end of a submission. A delay of nothing hides the loader at once. -/
def land (l : Lamp) (now : Nat) : Lamp :=
  { l with
    flying := false
    loader :=
      if l.delay = 0 then { l.loader with visible := false }
      else { l.loader with hideTimer := some ⟨now + l.delay, l.loader.generation⟩ } }

def hide (l : Lamp) : Lamp := { l with loader := { l.loader with visible := false, hideTimer := none } }

/-- What handling a message can make of a lamp. -/
inductive Handles (now : Nat) (l : Lamp) : Cue → Lamp → Prop where
  | still : Handles now l .other l
  | begins (free : l.flying = false) : Handles now l .other l.begin
  | hears {generation : Nat} (idle : generation ≠ l.loader.generation ∨ l.flying = true) :
      Handles now l (.hide generation) l
  | hides (free : l.flying = false) : Handles now l (.hide l.loader.generation) l.hide
  | lands (busy : l.flying = true) : Handles now l .land (l.land now)
  | restarts (busy : l.flying = true) : Handles now l .land (l.land now).begin

end Lamp

namespace Scene

variable (s : Scene) (now : Nat)

/-! ## Acts that leave the lamp alone -/

theorem lamp_remote : Form.Remote Form.lamp := fun _ => rfl

theorem post_lamp (f : Form) {m : Message} (aside : m.hides? = none) :
    (f.post m).lamp = f.lamp := by
  unfold Form.post
  split
  · simp [Form.lamp, aside]
  · rfl

theorem requestSubmit_lamp : (s.requestSubmit now).form.lamp = s.form.lamp := by
  unfold requestSubmit update
  dsimp only
  split
  · exact post_lamp _ rfl
  · rfl

theorem defer_lamp (trigger : Trigger) (waiters : List Ticket) :
    (s.defer trigger waiters).form.lamp = s.form.lamp := by
  unfold defer update
  dsimp only
  split <;> rfl

/-! ## Attempts and ends -/

theorem beginCycle_lamp (trigger : Trigger) (waiters : List Ticket) :
    (s.beginCycle trigger waiters).scene.form.lamp = s.form.lamp.begin := by
  rw [beginCycle_eq]
  exact Turn.Spares.andThen (publish_remote lamp_remote _ _) fun s' => rfl

theorem startSubmission_lamp (trigger : Trigger) (waiters : List Ticket) :
    (s.startSubmission trigger waiters).scene.form.lamp = s.form.lamp ∨
      (s.startSubmission trigger waiters).scene.form.lamp = s.form.lamp.begin := by
  unfold startSubmission
  dsimp only
  split
  · exact .inr (s.beginCycle_lamp trigger waiters)
  · exact .inl (s.halt_remote lamp_remote trigger waiters _)

theorem cleared_lamp : ((s.releaseToken.scheduleLoaderHide now)).form.lamp =
    { s.form.lamp with loader := (s.form.lamp.land now).loader } := by
  unfold scheduleLoaderHide update
  simp only [releaseToken_form]
  unfold Lamp.land
  split <;> rename_i delay <;> simp [Form.lamp, delay]

theorem settlement_lamp {s s' : Scene} {p : Pending} {failure : Option SubmitError}
    (turn : s.settlement now p failure = .goesOn s') : s'.form.lamp = s.form.lamp.land now := by
  unfold settlement at turn
  obtain ⟨s₁, answered, published⟩ := Turn.andThen_eq_goesOn turn
  have told : s₁.form.lamp = (s.landed p.cycle failure).form.lamp := by
    cases failure with
    | none => exact (acknowledge_remote lamp_remote _ _ _).goesOn answered
    | some e => exact (reject_remote lamp_remote _ _ _).goesOn answered
  rw [(publish_remote lamp_remote _ _).goesOn published, cleared_lamp, told]
  rfl

/-- The end of the submission in flight, and the attempt that was put off until then. -/
theorem handleSettled_lamp {s s' : Scene} {cycle : Nat} {failure : Option SubmitError}
    (turn : s.handleSettled now cycle failure = .goesOn s') :
    s.form.lamp.Handles now (s.form.cue (.settled cycle failure)) s'.form.lamp := by
  cases flight : s.form.pending with
  | none =>
    have stale : s.handleSettled now cycle failure = .goesOn s := by
      unfold handleSettled
      rw [flight]
    cases stale.symm.trans turn
    simpa [Form.cue, flight] using .still
  | some p =>
    by_cases own : p.cycle = cycle
    · subst own
      have busy : s.form.lamp.flying = true := by simp [Form.lamp, flight]
      rw [s.handleSettled_eq now flight] at turn
      rw [show s.form.cue (.settled p.cycle failure) = .land by simp [Form.cue, flight]]
      cases ended : s.settlement now p failure with
      | falls =>
        rw [ended] at turn
        cases turn
      | goesOn s₁ =>
        have landed := settlement_lamp now ended
        rw [ended] at turn
        cases waiting : s₁.form.deferred with
        | some d =>
          simp only [Turn.goOn, Turn.next?, waiting, Option.map_some, Attempt.make] at turn
          have attempted := (s₁.update fun f => { f with deferred := none }).startSubmission_lamp
            d.trigger d.waiters
          rw [turn] at attempted
          rcases attempted with same | begun
          · have same : s'.form.lamp = s₁.form.lamp := same
            rw [same, landed]
            exact .lands busy
          · have begun : s'.form.lamp = s₁.form.lamp.begin := begun
            rw [begun, landed]
            exact .restarts busy
        | none =>
          simp only [Turn.goOn, Turn.next?, waiting, Option.map_none, Turn.andThen] at turn
          rw [(s₁.publishCurrent_remote lamp_remote).goesOn turn, landed]
          exact .lands busy
    · have stale : s.handleSettled now cycle failure = .goesOn s := by
        unfold handleSettled
        rw [flight]
        exact if_pos own
      cases stale.symm.trans turn
      simpa [Form.cue, flight, own] using .still

/-! ## Any message -/

variable {s now} {s' : Scene}

theorem handles_of_spares {t : Turn} (spares : t.Spares Form.lamp s) (turn : t = .goesOn s') :
    s.form.lamp.Handles now .other s'.form.lamp := by
  rw [spares.goesOn turn]
  exact .still

theorem handles_of_attempt {first : Scene} {trigger : Trigger} {waiters : List Ticket}
    (turn : first.startSubmission trigger waiters = .goesOn s') (free : s.form.lamp.flying = false)
    (same : first.form.lamp = s.form.lamp) : s.form.lamp.Handles now .other s'.form.lamp := by
  have attempted := first.startSubmission_lamp trigger waiters
  rw [turn, same] at attempted
  rcases attempted with still | begun
  · exact (show s'.form.lamp = s.form.lamp from still) ▸ .still
  · exact (show s'.form.lamp = s.form.lamp.begin from begun) ▸ .begins free

theorem handleFieldChanged_lamp (path : FieldPath) (value : Json) :
    (s.handleFieldChanged now path value).Spares Form.lamp s := by
  unfold handleFieldChanged
  refine Turn.Spares.andThen ((putStore_remote lamp_remote _ _).since (runHook_remote lamp_remote s path value)) ?_
  intro s'
  refine (publishCurrent_remote lamp_remote _).since ?_
  split
  · rw [requestSubmit_lamp, noteChanged_remote lamp_remote]
  · exact noteChanged_remote lamp_remote _ _

theorem handleSetValue_lamp (path : FieldPath) (value : Json) (dirty : Option Bool) :
    (s.handleSetValue now path value dirty).Spares Form.lamp s := by
  unfold handleSetValue
  refine Turn.Spares.andThen ((putStore_remote lamp_remote _ _).since ?_) ?_
  · split
    · exact noteChanged_remote lamp_remote _ _
    · rfl
  · intro s'
    refine (publishCurrent_remote lamp_remote _).since ?_
    split
    · exact requestSubmit_lamp _ _
    · rfl

theorem handleReset_lamp (values : Option Json) : (s.handleReset values).Spares Form.lamp s := by
  refine (publishCurrent_remote lamp_remote _).since ?_
  simp [Form.lamp, update, cancelDebounce]

theorem handleLoaded_lamp (outcome : Except String Json) : (s.handleLoaded outcome).Spares Form.lamp s := by
  unfold handleLoaded
  refine Turn.Spares.andThen ?_ (publishCurrent_remote lamp_remote)
  cases outcome with
  | ok values => exact Turn.Spares.andThen ((putStore_remote lamp_remote _ _).since rfl) fun s' => rfl
  | error message => exact (notify_remote lamp_remote _ _ _).since rfl

theorem handleRequest_lamp {ticket : Ticket} {request : Request}
    (turn : s.handleRequest now ticket request = .goesOn s') :
    s.form.lamp.Handles now .other s'.form.lamp := by
  cases request with
  | register path field =>
    refine handles_of_spares ?_ turn
    unfold handleRequest
    dsimp only
    split <;> rfl
  | setValue path value dirty =>
    refine handles_of_spares ?_ turn
    exact (handleSetValue_lamp path value dirty).andThen fun s' => rfl
  | reset values =>
    refine handles_of_spares ?_ turn
    exact (handleReset_lamp values).andThen fun s' => rfl
  | submit =>
    change s.handleSubmit ticket = .goesOn s' at turn
    unfold handleSubmit at turn
    split at turn
    · cases turn
      rw [defer_lamp]
      exact .still
    · rename_i free
      exact handles_of_attempt turn (by simpa [Form.lamp] using free) rfl
  | _ =>
    refine handles_of_spares ?_ turn
    exact rfl

theorem handleDebounceElapsed_lamp {generation : Nat}
    (turn : s.handleDebounceElapsed generation = .goesOn s') :
    s.form.lamp.Handles now .other s'.form.lamp := by
  unfold handleDebounceElapsed at turn
  split at turn
  · split at turn
    · exact handles_of_spares ((publishCurrent_remote lamp_remote _).since (defer_lamp s.cancelDebounce .auto []))
        turn
    · rename_i free
      exact handles_of_attempt turn (by simpa [Form.lamp] using free) rfl
  · cases turn
    exact .still

theorem handleHideLoader_lamp {generation : Nat}
    (turn : s.handleHideLoader generation = .goesOn s') :
    s.form.lamp.Handles now (.hide generation) s'.form.lamp := by
  unfold handleHideLoader at turn
  split at turn
  · rename_i counts
    obtain ⟨rfl, free⟩ : generation = s.form.loader.generation ∧ s.form.pending = none := by
      simpa using counts
    rw [(publishCurrent_remote lamp_remote _).goesOn turn]
    exact .hides (by simp [Form.lamp, free])
  · rename_i stale
    cases turn
    refine .hears ?_
    by_cases current : generation = s.form.loader.generation
    · exact .inr (by simpa [current, Form.lamp, Option.isSome_iff_ne_none] using stale)
    · exact .inl current

/-- What a message does to the lamp, if the form goes on. -/
theorem handle_lamp {m : Message} (turn : s.handle now m = .goesOn s') :
    s.form.lamp.Handles now (s.form.cue m) s'.form.lamp := by
  cases m with
  | ask => exact handleRequest_lamp turn
  | fieldChanged path value => exact handles_of_spares (handleFieldChanged_lamp path value) turn
  | debounceElapsed => exact handleDebounceElapsed_lamp turn
  | settled => exact handleSettled_lamp now turn
  | loaded outcome => exact handles_of_spares (handleLoaded_lamp outcome) turn
  | hideLoader => exact handleHideLoader_lamp turn

end Scene

/-! ## Deeds -/

/-- What a deed can do to the lamp of a form that lives on. -/
inductive Lamp.Step (now : Nat) (l : Lamp) : Cue → Lamp → Prop where
  | still : Step now l .other l
  | straggle {generation : Nat} (old : generation < l.loader.generation) :
      Step now l .other { l with notices := l.notices ++ [generation] }
  | fire {t : Timer} (timer : l.loader.hideTimer = some t) (due : t.due ≤ now) :
      Step now l .other { l with
        loader := { l.loader with hideTimer := none }
        notices := l.notices ++ [t.generation] }
  | handle {cue : Cue} {l' : Lamp} (unnoticed : ∀ generation, cue ≠ .hide generation)
      (handled : l.Handles now cue l') : Step now l cue l'
  | notice {generation : Nat} {rest : List Nat} {l' : Lamp} (head : l.notices = generation :: rest)
      (handled : { l with notices := rest }.Handles now (.hide generation) l') :
      Step now l (.hide generation) l'

/-- What a deed means for the loader. -/
def Moment.cue (m : Moment) (d : Deed) : Cue :=
  match m.act d with
  | .handles message => m.form.cue message
  | _ => .other

namespace Moment

variable {a b : Moment} {d : Deed}

theorem cue_of_handles {m : Message} (handles : a.act d = .handles m) : a.cue d = a.form.cue m := by
  unfold cue
  rw [handles]

/-- The end of the submission in flight is handled. -/
theorem cue_eq_land (h : a.cue d = .land) : ∃ p failure, a.form.pending = some p ∧
    a.act d = .handles (.settled p.cycle failure) := by
  unfold cue at h
  split at h
  · rename_i m handles
    cases m with
    | settled cycle failure =>
      simp only [Form.cue] at h
      split at h
      · rename_i own
        obtain ⟨p, flight, same⟩ := (Option.any_eq_true _ _).mp own
        obtain rfl : p.cycle = cycle := by simpa using same
        exact ⟨p, failure, flight, handles⟩
      · cases h
    | _ => cases h
  · cases h

theorem cue_eq_hide {generation : Nat} (h : a.cue d = .hide generation) :
    a.act d = .handles (.hideLoader generation) := by
  unfold cue at h
  split at h
  · rename_i m handles
    cases m with
    | hideLoader =>
      cases h
      exact handles
    | settled =>
      simp only [Form.cue] at h
      split at h <;> cases h
    | _ => cases h
  · cases h

/-- Only a notice means to hide the loader. -/
theorem cue_unnoticed {m : Message} (aside : m.hides? = none) (generation : Nat) :
    a.form.cue m ≠ .hide generation := by
  cases m with
  | hideLoader => cases aside
  | settled =>
    simp only [Form.cue]
    split <;> nofun
  | _ => nofun

/-- All that a deed does to the lamp of a form that lives on. -/
theorem perform?_lamp (h : a.perform? d = some b) (alive : b.form.alive = true) :
    a.form.lamp.Step a.now (a.cue d) b.form.lamp := by
  have living := perform?_alive h alive
  have put (f : Form) {m : Message} (aside : m.hides? = none) (same : f.lamp = a.form.lamp) :
      a.form.lamp.Step a.now .other (f.post m).lamp := by
    rw [Scene.post_lamp f aside, same]
    exact .still
  cases d with
  | handle =>
    obtain ⟨m, rest, mailbox, -⟩ := handle_eq_some h
    have handles : a.act .handle = .handles m := by simp [act, mailbox]
    obtain ⟨rest', mailbox', turn⟩ := handles_goesOn h handles alive
    obtain rfl : rest = rest' := (List.cons.inj (mailbox.symm.trans mailbox')).2
    have handled := Scene.handle_lamp turn
    rw [cue_of_handles handles]
    cases notice : m.hides? with
    | none =>
      have lamp : (a.scene.update fun f => { f with mailbox := rest }).form.lamp = a.form.lamp := by
        simp [Scene.update, Form.lamp, mailbox, notice]
      rw [lamp] at handled
      exact .handle (cue_unnoticed notice) handled
    | some generation =>
      cases m with
      | hideLoader =>
        cases notice
        have head : a.form.lamp.notices = generation :: rest.filterMap Message.hides? := by
          simp [Form.lamp, mailbox, Message.hides?]
        exact .notice head handled
      | _ => cases notice
  | close =>
    simp only [perform?, Option.ite_none_right_eq_some, Option.some.injEq] at h
    obtain ⟨_, rfl⟩ := h
    cases alive
  | pass | stop | share =>
    cases h
    exact .still
  | ask =>
    simp only [perform?, Option.ite_none_right_eq_some, Option.some.injEq] at h
    obtain ⟨_, rfl⟩ := h
    exact put _ rfl rfl
  | change =>
    cases h
    exact put _ rfl rfl
  | straggle notice =>
    simp only [perform?, Option.ite_none_right_eq_some, Option.some.injEq] at h
    obtain ⟨off, rfl⟩ := h
    cases notice with
    | debounceElapsed => exact put _ rfl rfl
    | hideLoader generation =>
      have told : ((a.form.post (.hideLoader generation)).lamp) =
          { a.form.lamp with notices := a.form.lamp.notices ++ [generation] } := by
        simp [Form.post, living, Form.lamp, Message.hides?]
      have old : generation < a.form.loader.generation := by
        simpa [Form.hasCalledOff] using off
      exact told ▸ .straggle old
    | _ => simp [Form.hasCalledOff] at off
  | startCall | endCall =>
    simp only [perform?, Scene.startCall?, Scene.endCallAt?, Option.map_eq_some_iff] at h
    obtain ⟨_, ⟨c, _, rfl⟩, rfl⟩ := h
    exact .still
  | finishRun run =>
    simp only [perform?, Scene.finishRunAt?, Option.map_eq_some_iff] at h
    obtain ⟨_, ⟨r, _, rfl⟩, rfl⟩ := h
    exact put { a.form with runs := a.form.runs.eraseIdx run } rfl rfl
  | fireDebounce =>
    simp only [perform?, Scene.fireDebounce?, Option.map_eq_some_iff] at h
    obtain ⟨_, ⟨t, _, rfl⟩, rfl⟩ := h
    exact put { a.form with debounce := { a.form.debounce with timer := none } } rfl rfl
  | fireHide =>
    simp only [perform?, Scene.fireHide?, Option.map_eq_some_iff, Option.filter_eq_some_iff] at h
    obtain ⟨_, ⟨t, ⟨timer, due⟩, rfl⟩, rfl⟩ := h
    have fired : ({ a.form with loader := { a.form.loader with hideTimer := none } }.post
        (.hideLoader t.generation)).lamp = { a.form.lamp with
          loader := { a.form.loader with hideTimer := none }
          notices := a.form.lamp.notices ++ [t.generation] } := by
      simp [Form.post, living, Form.lamp, Message.hides?]
    exact fired ▸ .fire timer (by simpa using due)
  | finishLoad =>
    simp only [perform?, Scene.finishLoad?, Option.map_eq_some_iff] at h
    obtain ⟨_, ⟨l, _, rfl⟩, rfl⟩ := h
    cases l.outcome with
    | panics => exact .still
    | values | fails => exact put { a.form with load := none } rfl rfl

end Moment

end LiveForm
