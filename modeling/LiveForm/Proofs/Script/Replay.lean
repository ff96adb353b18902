import LiveForm.Proofs.Script.Ticks

/-!
# A script that submits by hand comes to what it says

The form of a script has a mailbox, a clock and a loader, and its handler takes time. When a step is
over nothing of that is left but the loader, and what the form holds is what the plain reading says.

* `Script.Keeps`: a world holds what has been read of a script so far;
* `Script.step_keeps`: one step, whatever its latency;
* `manual_replay`: the report of a script is that of its plain reading.
-/

set_option autoImplicit false

namespace LiveForm

/-! ## A world with one form -/

namespace World

variable {w : World} {f f' : Form}

theorem act_single (only : w.forms = [f]) (change : Scene → Scene) :
    (w.act 0 change).forms = [(change ⟨f, w.guard f.setup.guardName⟩).form] ∧
      (w.act 0 change).now = w.now := by
  unfold act
  rw [only]
  exact ⟨by simp [putScene, only], rfl⟩

theorem settle_single (only : w.forms = [f]) :
    ∃ guard, w.settle.forms = [(Scene.settle ⟨f, guard⟩ w.now).form] ∧ w.settle.now = w.now := by
  have once : w.settle = w.act 0 fun s => s.settle w.now := by
    unfold settle
    rw [only]
    rfl
  rw [once]
  exact ⟨_, act_single only _⟩

/-- A form that settles in the same way beside any guard. -/
theorem settle_to (only : w.forms = [f])
    (settles : ∀ guard, (Scene.settle ⟨f, guard⟩ w.now).form = f') :
    w.settle.forms = [f'] ∧ w.settle.now = w.now := by
  obtain ⟨guard, forms, now⟩ := settle_single only
  exact ⟨by rw [forms, settles], now⟩

theorem wait_reached {wanted : Form → Bool} (only : w.forms = [f]) (reached : wanted f = true)
    (timeout : Option Nat) : w.wait 0 wanted timeout = (w, .reached) := by
  have first : w.forms[0]? = some f := by simp [only]
  simp only [wait, waitWithin, first, reached, if_true]

theorem moveTo_to {time : Nat} (only : w.forms = [f]) (ahead : w.now ≤ time)
    (settles : ∀ guard, (Scene.settle ⟨f, guard⟩ time).form = f') :
    (w.moveTo time).forms = [f'] ∧ (w.moveTo time).now = time := by
  have clock : max w.now time = time := Nat.max_eq_right ahead
  obtain ⟨forms, now⟩ :=
    settle_to (w := { w with now := max w.now time }) only (clock.symm ▸ settles)
  exact ⟨forms, now.trans clock⟩

/-- A form that is as wanted after its next alarm. -/
theorem wait_once {wanted : Form → Bool} {time : Nat} (only : w.forms = [f])
    (waits : wanted f = false) (alive : f.alive = true) (alarm : f.nextAlarm? = some time)
    (counted : 0 < f.alarmsAhead) (ahead : w.now ≤ time)
    (settles : ∀ guard, (Scene.settle ⟨f, guard⟩ time).form = f') (reached : wanted f' = true) :
    (w.moveTo time).forms = [f'] ∧ (w.moveTo time).now = time ∧
      w.wait 0 wanted none = (w.moveTo time, .reached) := by
  obtain ⟨forms, now⟩ := moveTo_to only ahead settles
  refine ⟨forms, now, ?_⟩
  have first : w.forms[0]? = some f := by simp [only]
  have next : w.nextAlarm? = some time := by simp [nextAlarm?, only, alarm]
  have then' : (w.moveTo time).forms[0]? = some f' := by simp [forms]
  obtain ⟨n, more⟩ : ∃ n, w.alarmsAhead = n + 1 :=
    Nat.exists_eq_add_one.mpr (by simpa [alarmsAhead, only] using counted)
  simp [wait, more, waitWithin, first, waits, alive, next, then', reached, Option.filter]

end World

/-- What the handler was given whose call has ended. -/
def Event.data? : Event → Option SubmitData
  | .callEnded (.handler data) => some data
  | _ => none

namespace Script

variable {s : Script} {settings : Settings} {r r' : Replica} {w : World} {tickets : Ticket}

/-- A world holds what has been read of the script so far, and its form rests. -/
structure Keeps (s : Script) (settings : Settings) (r : Replica) (tickets : Ticket) (w : World)
    (x : Past) : Prop where
  only : w.forms = [s.resting settings r x]
  asleep : x.Asleep w.now
  fresh : ∀ t, tickets ≤ t → Event.reply? t x.history = none
  handed : (s.reportOn (s.resting settings r x)).submissions = r.submissions

/-! ## What is read off the history -/

theorem received_eq (f : Form) : received f = f.history.reverse.filterMap Event.data? := by
  unfold received
  apply List.filterMap_congr
  intro e _
  cases e with
  | callEnded callee => cases callee <;> rfl
  | _ => rfl

theorem received_cons {f g : Form} {e : Event} (h : g.history = e :: f.history) :
    received g = received f ++ e.data?.toList := by
  rw [received_eq, received_eq, h, List.reverse_cons, List.filterMap_append]
  cases data : e.data? <;> simp [data]

theorem reply?_settledPast {x : Past} {t t' : Ticket} {now : Nat} (other : t ≠ t') :
    Event.reply? t' (s.settledPast settings r x t now).history = Event.reply? t' x.history := by
  show (if t = t' then _ else Event.reply? t' (_ ++ _)) = _
  rw [if_neg other]
  cases s.answer.failure? <;> rfl

theorem hasReply_settledPast (x : Past) (t : Ticket) (now : Nat) :
    hasReply t (s.resting settings r' (s.settledPast settings r x t now)) = true := by
  show (if t = t then some _ else _).isSome = true
  rw [if_pos rfl]
  rfl

/-- The handler of a submission that has ended was given the edits. -/
theorem received_settledPast {x x' : Past} {r' : Replica} {t : Ticket} {now : Nat} {blocking : Bool}
    (history : x'.history = .callEnded (.handler (data r)) ::
      .callStarted (.handler (data r)) blocking :: .began (r.submits + 1) .manual :: x.history) :
    received (s.resting settings r' (s.settledPast settings r x' t now)) =
      received (s.resting settings r x) ++ [data r] := by
  have told : ∃ (answer : Reply) (notice : Option SubmitError),
      (s.settledPast settings r x' t now).history =
        .answered t answer :: (notice.map fun e => Event.notified
          ((s.formConfig settings).catalog.message .submitError) (SubmitError.message e)).toList ++
            .settled (r.submits + 1) s.answer.failure? :: x'.history := ⟨_, s.answer.failure?, rfl⟩
  obtain ⟨answer, notice, told⟩ := told
  rw [received_eq, received_eq]
  show (s.settledPast settings r x' t now).history.reverse.filterMap Event.data? =
    x.history.reverse.filterMap Event.data? ++ [data r]
  rw [told, history]
  rw [List.reverse_append, List.filterMap_append]
  cases notice <;> simp <;> rfl

theorem handed_settledPast {x x' : Past} {t : Ticket} {now : Nat} {blocking : Bool}
    (history : x'.history = .callEnded (.handler (data r)) ::
      .callStarted (.handler (data r)) blocking :: .began (r.submits + 1) .manual :: x.history)
    (handed : (s.reportOn (s.resting settings r x)).submissions = r.submissions) :
    (s.reportOn (s.resting settings (r.submit s.failSubmit)
      (s.settledPast settings r x' t now))).submissions = (r.submit s.failSubmit).submissions := by
  unfold reportOn Replica.submit at *
  rw [received_settledPast history]
  rcases Bool.eq_false_or_eq_true s.failSubmit with fails | succeeds
  · simp only [fails, if_true] at handed ⊢
    exact handed
  · simp only [succeeds, Bool.false_eq_true, if_false] at handed ⊢
    rw [← handed, List.map_append]
    rfl

/-! ## Steps -/

/-- A request is sent, and what is due at once is done before the form is waited for. -/
theorem ask_sends {f : Form} (tickets : Ticket) (request : Request) (only : w.forms = [f])
    (alive : f.alive = true) :
    ∃ guard, ∃ sent : World,
      sent.forms = [(Scene.settle ⟨f.post (.ask tickets request), guard⟩ w.now).form] ∧
      sent.now = w.now ∧
      ∀ w', sent.wait place (hasReply tickets) none = (w', .reached) →
        ask w tickets request = .ok w' := by
  obtain ⟨posted, now⟩ :=
    World.act_single only fun s => s.update fun f => f.post (.ask tickets request)
  obtain ⟨guard, forms, later⟩ := World.settle_single posted
  rw [now] at forms later
  refine ⟨guard, _, forms, later, fun w' waits => ?_⟩
  unfold ask
  rw [only, if_pos (show [f][place]?.any Form.alive = true from alive)]
  simp only [place] at waits ⊢
  rw [waits]

/-- A write is done at once. -/
theorem set_keeps {x : Past} {path : FieldPath} {value : Json} {store : Store}
    (keeps : s.Keeps settings r tickets w x) (written : r.store.set? path value true = some store) :
    ∃ w' x', ask w tickets (.setValue path value (some true)) = .ok w' ∧
      s.Keeps settings { r with store } (tickets + 1) w' x' := by
  obtain ⟨guard, sent, forms, now, done⟩ :=
    ask_sends tickets (.setValue path value (some true)) keeps.only rfl
  rw [settle_set keeps.asleep written] at forms
  refine ⟨sent, x.add (.answered tickets .done), done _ (World.wait_reached forms ?_ none),
    forms, ?_, ?_, ?_⟩
  · show (if tickets = tickets then some _ else _).isSome = true
    rw [if_pos rfl]
    rfl
  · rw [now]
    exact keeps.asleep
  · intro t after
    show (if tickets = t then _ else Event.reply? t x.history) = none
    rw [if_neg (Nat.ne_of_lt after)]
    exact keeps.fresh t (Nat.le_of_succ_le after)
  · have same : received (s.resting settings { r with store } (x.add (.answered tickets .done))) =
        received (s.resting settings r x) :=
      (received_cons (f := s.resting settings r x) rfl).trans (List.append_nil _)
    have handed := keeps.handed
    unfold reportOn at handed ⊢
    rw [same]
    exact handed

/-- What holds when a submission has settled. -/
theorem keeps_settled {x x' : Past} {w' : World} {now : Nat} {blocking : Bool}
    (keeps : s.Keeps settings r tickets w x)
    (only : w'.forms = [s.resting settings (r.submit s.failSubmit)
      (s.settledPast settings r x' tickets now)]) (clock : w'.now = now)
    (history : x'.history = .callEnded (.handler (data r)) ::
      .callStarted (.handler (data r)) blocking :: .began (r.submits + 1) .manual :: x.history) :
    s.Keeps settings (r.submit s.failSubmit) (tickets + 1) w'
      (s.settledPast settings r x' tickets now) where
  only := only
  asleep := clock ▸ settledPast_asleep
  fresh t after := by
    rw [reply?_settledPast (Nat.ne_of_lt after), history]
    exact keeps.fresh t (Nat.le_of_succ_le after)
  handed := handed_settledPast history keeps.handed

/-- A submission is answered when its handler has taken its time. -/
theorem submit_keeps {x : Past} (keeps : s.Keeps settings r tickets w x) :
    ∃ w' x', ask w tickets .submit = .ok w' ∧
      s.Keeps settings (r.submit s.failSubmit) (tickets + 1) w' x' := by
  obtain ⟨guard, sent, forms, now, done⟩ := ask_sends tickets .submit keeps.only rfl
  rcases Nat.eq_zero_or_pos s.latency.toNat with atOnce | later
  · obtain ⟨_, x', settled, blocking, history⟩ :=
      settle_submit settings r x guard w.now tickets atOnce
    rw [settled] at forms
    exact ⟨sent, _, done _ (World.wait_reached forms (hasReply_settledPast x' tickets w.now) none),
      keeps_settled keeps forms now history⟩
  · obtain ⟨guard', x', launched, blocking, history⟩ :=
      settle_launch settings r x guard w.now tickets later
    rw [launched] at forms
    have waits : hasReply tickets (s.flying settings r x' tickets guard.nextId
        [s.run₁ r (.running (w.now + s.latency.toNat))] []) = false := by
      show (Event.reply? tickets x'.history).isSome = false
      rw [history]
      exact Option.isSome_eq_false_iff.mpr (Option.isNone_iff_eq_none.mpr
        (keeps.fresh tickets (Nat.le_refl _)))
    have lands (guard' : UnloadGuard) : (Scene.settle ⟨s.flying settings r x' tickets guard.nextId
        [s.run₁ r (.running (w.now + s.latency.toNat))] [], guard'⟩ (w.now + s.latency.toNat)).form =
          s.resting settings (r.submit s.failSubmit) (s.settledPast settings r
            (x'.add (.callEnded (.handler (data r)))) tickets (w.now + s.latency.toNat)) :=
      congrArg Scene.form (settle_landing (Nat.le_refl _))
    obtain ⟨landed, clock, reached⟩ := World.wait_once forms waits rfl rfl (show 0 < 2 by omega)
      (Nat.le_trans (Nat.le_of_eq now) (Nat.le_add_right _ _)) lands
      (hasReply_settledPast _ tickets _)
    exact ⟨_, _, done _ reached, keeps_settled keeps landed clock (congrArg (List.cons _) history)⟩

/-- The clock moves on to a time before the loader is to be hidden. -/
theorem moveTo_keeps {x : Past} {time : Nat} (keeps : s.Keeps settings r tickets w x)
    (ahead : w.now ≤ time) (asleep : x.Asleep time) :
    s.Keeps settings r tickets (w.moveTo time) x := by
  have still (guard : UnloadGuard) : (Scene.settle ⟨s.resting settings r x, guard⟩ time).form =
      s.resting settings r x := congrArg Scene.form (settle_still asleep)
  obtain ⟨only, now⟩ := World.moveTo_to keeps.only ahead still
  exact ⟨only, now.symm ▸ asleep, keeps.fresh, keeps.handed⟩

theorem Keeps.mono {x : Past} {tickets' : Ticket} (keeps : s.Keeps settings r tickets w x)
    (le : tickets ≤ tickets') : s.Keeps settings r tickets' w x :=
  ⟨keeps.only, keeps.asleep, fun t after => keeps.fresh t (Nat.le_trans le after), keeps.handed⟩

/-- Time passes, and the loader may be hidden in it. -/
theorem sleep_keeps {x : Past} (keeps : s.Keeps settings r tickets w x) (ms : Nat) :
    ∃ x', s.Keeps settings r (tickets + 1) (w.advance ms) x' := by
  have alarms : (s.resting settings r x).alarms = (x.loader.hideTimer.map Timer.due).toList := by
    simp [Form.alarms, resting, Form.make, formConfig]
  have counted :
      (s.resting settings r x).alarmsAhead = if x.loader.hideTimer.isSome then 1 else 0 := by
    simp [Form.alarmsAhead, resting, Form.make, formConfig]
    rfl
  have target : w.now ≤ w.now + ms := Nat.le_add_right _ _
  unfold World.advance World.alarmsAhead
  rw [keeps.only]
  show ∃ x', s.Keeps settings r (tickets + 1)
    (World.advanceWithin ((s.resting settings r x).alarmsAhead + 0) w (w.now + ms)) x'
  rw [counted]
  cases set : x.loader.hideTimer with
  | none => exact ⟨x, (moveTo_keeps keeps target (by simp [Past.Asleep, set])).mono (Nat.le_succ _)⟩
  | some timer =>
    obtain ⟨early, current⟩ := keeps.asleep timer set
    have next : w.nextAlarm? = some timer.due := by
      simp [World.nextAlarm?, keeps.only, Form.nextAlarm?, alarms, set]
    simp only [Option.isSome_some, if_true, World.advanceWithin, next]
    split
    · rename_i due
      have hides (guard : UnloadGuard) : (Scene.settle ⟨s.resting settings r x, guard⟩
          timer.due).form = s.resting settings r x.hidden :=
        congrArg Scene.form (settle_hide set (Nat.le_refl _) current)
      obtain ⟨only, now⟩ := World.moveTo_to keeps.only (Nat.le_of_lt early) hides
      have hidden : s.Keeps settings r tickets (w.moveTo timer.due) x.hidden :=
        ⟨only, x.hidden_asleep _, keeps.fresh, keeps.handed⟩
      exact ⟨_, (moveTo_keeps hidden (now.symm ▸ due) (x.hidden_asleep _)).mono (Nat.le_succ _)⟩
    · rename_i later
      refine ⟨x, (moveTo_keeps keeps target fun t also => ?_).mono (Nat.le_succ _)⟩
      obtain rfl : timer = t := Option.some.inj (set.symm.trans also)
      exact ⟨Nat.lt_of_not_le later, current⟩

/-- A step of the script does what it says. -/
theorem step_keeps {x : Past} {step : ScriptStep} (keeps : s.Keeps settings r tickets w x)
    (read : r.step? s.failSubmit step = some r') :
    ∃ w' x', Script.step w tickets step = .ok w' ∧ s.Keeps settings r' (tickets + 1) w' x' := by
  cases step with
  | set text value =>
    obtain ⟨path, parsed, read⟩ := Option.bind_eq_some_iff.mp read
    obtain ⟨store, written, rfl⟩ := Option.map_eq_some_iff.mp read
    simp only [Script.step, FieldPath.parse_of_toOption parsed]
    exact set_keeps keeps written
  | sleep ms =>
    cases read
    obtain ⟨x', kept⟩ := sleep_keeps keeps ms.toNat
    exact ⟨_, x', rfl, kept⟩
  | submit =>
    cases read
    exact submit_keeps keeps

theorem runSteps_keeps {x : Past} {steps : List ScriptStep}
    (keeps : s.Keeps settings r tickets w x) (read : r.run? s.failSubmit steps = some r') :
    ∃ w' x' tickets', runSteps w tickets steps = .ok w' ∧ s.Keeps settings r' tickets' w' x' := by
  induction steps generalizing r w tickets x with
  | nil =>
    cases read
    exact ⟨w, x, tickets, rfl, keeps⟩
  | cons step rest ih =>
    obtain ⟨next, first, others⟩ := Option.bind_eq_some_iff.mp read
    obtain ⟨w', x', done, kept⟩ := step_keeps keeps first
    rw [runSteps, done]
    exact ih kept others

/-! ## The beginning and the end -/

/-- A form that has just been started rests. -/
theorem opening_rests (manual : s.autoSubmit.toConfig.enable = false) (guard : UnloadGuard) :
    (Scene.publishCurrent ⟨Form.make (s.formConfig settings) 0, guard⟩).land.form =
      s.resting settings s.start ⟨0, ⟨false, 0, none⟩, []⟩ := by
  have setup : { (Form.make (s.formConfig settings) 0).setup with autoSubmit := false } =
      (Form.make (s.formConfig settings) 0).setup :=
    congrArg (fun on => { (Form.make (s.formConfig settings) 0).setup with autoSubmit := on })
      manual.symm
  rw [Scene.publishCurrent, Scene.publish_unwatched rfl]
  unfold resting
  rw [setup]
  rfl

theorem start_keeps (manual : s.autoSubmit.toConfig.enable = false) :
    ∃ x, s.Keeps settings s.start 0 (World.empty.spawn (s.formConfig settings)).settle x := by
  let w : World := { World.empty with forms := [Form.make (s.formConfig settings) 0] }
  obtain ⟨spawned, -⟩ := World.act_single (w := w) rfl fun s => s.publishCurrent.land
  rw [opening_rests manual] at spawned
  have asleep (now : Nat) : Past.Asleep ⟨0, ⟨false, 0, none⟩, []⟩ now := nofun
  have still (guard : UnloadGuard) (now : Nat) :
      (Scene.settle ⟨s.resting settings s.start ⟨0, ⟨false, 0, none⟩, []⟩, guard⟩ now).form =
        s.resting settings s.start ⟨0, ⟨false, 0, none⟩, []⟩ :=
    congrArg Scene.form (settle_still (asleep now))
  obtain ⟨only, -⟩ := World.settle_to spawned fun guard => still guard _
  refine ⟨_, only, asleep _, fun t _ => rfl, ?_⟩
  · unfold reportOn
    split <;> rfl

/-- What is published of a form that rests. -/
theorem currentSnapshot_resting (s : Script) (settings : Settings) (r : Replica) (x : Past) :
    ∃ showLoader, (s.resting settings r x).currentSnapshot = r.snapshot showLoader :=
  ⟨_, rfl⟩

theorem finish_keeps {x : Past} (keeps : s.Keeps settings r tickets w x) :
    ∃ showLoader, s.finish w = .ok ⟨r.snapshot showLoader, r.store.values, r.submissions⟩ := by
  have first : w.forms[place]? = some (s.resting settings r x) := by simp [keeps.only, place]
  have reached : w.wait place isIdle (some settleTimeout) = (w, .reached) :=
    World.wait_reached keeps.only rfl _
  have living :
      (some (s.resting settings r x)).filter Form.alive = some (s.resting settings r x) := rfl
  obtain ⟨showLoader, state⟩ := currentSnapshot_resting s settings r x
  refine ⟨showLoader, ?_⟩
  simp only [finish, reached, first, living]
  rw [← keeps.handed, ← state]
  rfl

end Script

open Script in
/-- A script that submits by hand comes to an end whatever its latency, its waits and the settings
are, and its report is that of its plain reading: the values, what was submitted, in order, and a
form at rest. All submit steps are counted, and the form tells whether the last one has succeeded. -/
theorem manual_replay (s : Script) (settings : Settings)
    (manual : s.autoSubmit.toConfig.enable = false) (clear : s.steps.all ScriptStep.isClear = true) :
    ∃ last showLoader, s.replica? = some last ∧ last.Counts s.failSubmit s.submits ∧
      s.run settings = .ok ⟨last.snapshot showLoader, last.store.values, last.submissions⟩ := by
  have object : s.start.store.values.kind? = some .object := Store.rooted_object s.defaults
  obtain ⟨last, read⟩ : ∃ last, s.replica? = some last := Replica.run?_isSome object clear
  have counts : last.Counts s.failSubmit s.submits :=
    Nat.zero_add s.submits ▸ Replica.run?_counts ⟨rfl, rfl⟩ read
  obtain ⟨x, started⟩ := start_keeps manual
  obtain ⟨w, x', tickets, ran, kept⟩ := runSteps_keeps started read
  obtain ⟨showLoader, finished⟩ := finish_keeps kept
  refine ⟨last, showLoader, read, counts, ?_⟩
  unfold run
  rw [ran]
  exact finished

/-- A name is edited and submitted, and an edit of a list is made while nobody submits. -/
def Script.edited : Script where
  defaults := .obj [("name", .str "Ada")]
  autoSubmit := .toggle false
  failSubmit := false
  latency := 5
  steps := [.set "name" (.str "Grace"), .submit, .set "tags[0]" (.str "navy"), .sleep 100]

theorem manual_replay_edited :
    ∃ last showLoader, Script.edited.replica? = some last ∧
      last.Counts false Script.edited.submits ∧
      Script.edited.run .standard =
        .ok ⟨last.snapshot showLoader, last.store.values, last.submissions⟩ :=
  manual_replay Script.edited .standard rfl (by decide +kernel)

end LiveForm
