import LiveForm.Proofs.Frame
import LiveForm.Proofs.Ledger.Course
import LiveForm.Proofs.Registry

/-!
# How a cycle starts

A cycle starts in the handling of a message, which makes an attempt that nothing stops. Until then
nothing has changed of those it calls.

* `Form.roster`: those that a form calls, and what it has called so far;
* `Scene.attempt?_roster`: an attempt is made with the roster that the message has found;
* `Scene.handle_unattempted`: a message that makes no attempt starts nothing;
* `Moment.Launches`: so a deed starts nothing, or it starts a run as the form asks for it, or the form
  falls while it shows that a cycle has begun.
-/

set_option autoImplicit false

namespace LiveForm

structure Roster where
  setup : FormSetup
  handler : Option Handler
  registry : Registry Listener Hook
  cycles : Nat
  runs : List Run

/-- Those that a form calls, and what it has called so far. -/
def Form.roster (f : Form) : Roster := ⟨f.setup, f.handler, f.registry, f.cycles, f.runs⟩

theorem roster_remote : Form.Remote Form.roster := fun _ => rfl

/-- However a turn ends, it has done no more to the roster than to register fields and to drop some. -/
def Turn.Registers (t : Turn) (s : Scene) : Prop :=
  ∃ operations : List (Registry.Operation Listener Hook), t.scene.form.roster =
    { s.form.roster with registry := operations.foldl Registry.obey s.form.registry }

namespace Turn.Registers

variable {t : Turn} {s s' : Scene} {act : Scene → Turn}

theorem of_spares (h : t.Spares Form.roster s) : t.Registers s := ⟨[], h⟩

theorem andThen (h : t.Registers s) (next : ∀ s', (act s').Registers s') :
    (t.andThen act).Registers s := by
  cases t with
  | falls => exact h
  | goesOn s' =>
    obtain ⟨first, same⟩ := h
    obtain ⟨others, same'⟩ := next s'
    have same : s'.form.roster =
      { s.form.roster with registry := first.foldl Registry.obey s.form.registry } := same
    have registry : s'.form.registry = first.foldl Registry.obey s.form.registry :=
      congrArg Roster.registry same
    refine ⟨first ++ others, same'.trans ?_⟩
    rw [same, registry, List.foldl_append]

theorem since (h : t.Registers s') (same : s'.form.roster = s.form.roster) : t.Registers s := by
  obtain ⟨operations, other⟩ := h
  refine ⟨operations, other.trans ?_⟩
  rw [same, show s'.form.registry = s.form.registry from congrArg Roster.registry same]

end Turn.Registers

namespace Scene

variable (s : Scene) (now : Nat) {m : Message} {p : Pending}

theorem scheduleLoaderHide_roster : (s.scheduleLoaderHide now).form.roster = s.form.roster := by
  unfold scheduleLoaderHide update
  dsimp only
  split <;> rfl

theorem settlement_roster (failure : Option SubmitError) :
    (s.settlement now p failure).Spares Form.roster s := by
  unfold settlement
  refine Turn.Spares.andThen ?_ fun s' => ?_
  · cases failure with
    | none => exact (acknowledge_remote roster_remote _ _ _).since rfl
    | some e => exact (reject_remote roster_remote _ _ _).since rfl
  · refine (publish_remote roster_remote _ _).since ?_
    rw [scheduleLoaderHide_roster, releaseToken_remote roster_remote]

/-- An attempt is made with the roster that the message has found. -/
theorem attempt?_roster {x : Attempt} (h : s.attempt? now m = some x) :
    x.scene.form.roster = s.form.roster := by
  unfold attempt? at h
  split at h
  · split at h
    · cases h
    · cases h
      rfl
  · split at h
    · cases h
      rfl
    · cases h
  · rename_i cycle failure
    obtain ⟨p, flight, next⟩ := Option.bind_eq_some_iff.mp h
    have spares := s.settlement_roster now (p := p) failure
    cases turn : s.settlement now p failure with
    | falls s' =>
      rw [turn] at next
      cases next
    | goesOn s' =>
      rw [turn] at next spares
      obtain ⟨d, -, rfl⟩ := Option.map_eq_some_iff.mp next
      exact spares
  · cases h

theorem requestSubmit_roster : (s.requestSubmit now).form.roster = s.form.roster := by
  unfold requestSubmit update
  dsimp only
  split
  · unfold Form.post
    split <;> rfl
  · rfl

theorem defer_roster (trigger : Trigger) (waiters : List Ticket) :
    (s.defer trigger waiters).form.roster = s.form.roster := by
  unfold defer update
  dsimp only
  split <;> rfl

theorem handleFieldChanged_roster (path : FieldPath) (value : Json) :
    (s.handleFieldChanged now path value).Spares Form.roster s := by
  unfold handleFieldChanged
  refine Turn.Spares.andThen
    ((putStore_remote roster_remote _ _).since (runHook_remote roster_remote _ _ _)) fun s' => ?_
  refine (publishCurrent_remote roster_remote _).since ?_
  split
  · rw [requestSubmit_roster, noteChanged_remote roster_remote]
  · exact noteChanged_remote roster_remote _ _

theorem handleSetValue_roster (path : FieldPath) (value : Json) (dirty : Option Bool) :
    (s.handleSetValue now path value dirty).Spares Form.roster s := by
  unfold handleSetValue
  refine Turn.Spares.andThen ((putStore_remote roster_remote _ _).since ?_) fun s' => ?_
  · split
    · exact noteChanged_remote roster_remote _ _
    · rfl
  · refine (publishCurrent_remote roster_remote _).since ?_
    split
    · exact requestSubmit_roster _ _
    · rfl

theorem handleLoaded_registers (outcome : Except String Json) :
    (s.handleLoaded outcome).Registers s := by
  unfold handleLoaded
  refine Turn.Registers.andThen ?_ fun s' => .of_spares (publishCurrent_remote roster_remote s')
  cases outcome with
  | error message => exact (Turn.Registers.of_spares (notify_remote roster_remote _ _ _)).since rfl
  | ok values =>
    refine Turn.Registers.since (Turn.Registers.andThen
      (.of_spares (putStore_remote roster_remote _ _)) fun s' => ?_) rfl
    exact ⟨[.retain s'.form.store.baseline], rfl⟩

theorem handleSettled_unattempted {cycle : Nat} {failure : Option SubmitError}
    (h : s.attempt? now (.settled cycle failure) = none) :
    (s.handleSettled now cycle failure).Spares Form.roster s := by
  cases flight : s.form.pending.filter fun p => p.cycle = cycle with
  | none =>
    have stale : s.handleSettled now cycle failure = .goesOn s := by
      unfold handleSettled
      split
      · rfl
      · rename_i p flying
        rw [flying, Option.filter_eq_none_iff] at flight
        exact if_pos (by simpa using flight p rfl)
    rw [stale]
    rfl
  | some p =>
    obtain ⟨flying, same⟩ := Option.filter_eq_some_iff.mp flight
    obtain rfl : p.cycle = cycle := by simpa using same
    have unmade : (s.settlement now p failure).next? = none := by
      rw [attempt?, flight, Option.bind_some] at h
      exact h
    rw [s.handleSettled_eq now flying, Turn.goOn, unmade]
    exact (s.settlement_roster now failure).andThen (publishCurrent_remote roster_remote)

theorem handleDebounceElapsed_unattempted {generation : Nat}
    (h : s.attempt? now (.debounceElapsed generation) = none) :
    (s.handleDebounceElapsed generation).Spares Form.roster s := by
  unfold handleDebounceElapsed
  split
  · rename_i ready
    have ready : generation = s.form.debounce.generation ∧ s.form.debounce.armed = true := by
      simpa using ready
    split
    · exact (publishCurrent_remote roster_remote _).since (defer_roster s.cancelDebounce .auto [])
    · rename_i free
      have free : s.form.pending.isNone = true := by simpa using free
      rw [attempt?, if_pos ⟨ready.1, ready.2, free⟩] at h
      cases h
  · rfl

theorem handleRequest_registers {ticket : Ticket} {request : Request}
    (h : s.attempt? now (.ask ticket request) = none) :
    (s.handleRequest now ticket request).Registers s := by
  cases request with
  | setValue path value dirty =>
    exact .of_spares ((s.handleSetValue_roster now path value dirty).andThen fun s' => rfl)
  | reset values =>
    have shows : (s.handleReset values).Spares Form.roster s :=
      (publishCurrent_remote roster_remote _).since rfl
    exact .of_spares (shows.andThen fun s' => rfl)
  | submit =>
    show (s.handleSubmit ticket).Registers s
    unfold handleSubmit
    split
    · exact ⟨[], defer_roster s .manual [ticket]⟩
    · rename_i free
      rw [attempt?, if_neg free] at h
      cases h
  | register path field =>
    refine ⟨[.register path field s.form.store.baseline], ?_⟩
    unfold handleRequest
    dsimp only [List.foldl_cons, List.foldl_nil, Registry.obey]
    cases s.form.registry.register path field s.form.store.baseline <;> rfl
  | unregister paths =>
    refine ⟨[.unregister paths], ?_⟩
    cases paths <;> rfl
  | _ => exact ⟨[], rfl⟩

/-- A message that makes no attempt starts nothing, and does no more to the roster than to register
fields and to drop some. -/
theorem handle_unattempted (h : s.attempt? now m = none) : (s.handle now m).Registers s := by
  cases m with
  | fieldChanged path value => exact .of_spares (s.handleFieldChanged_roster now path value)
  | loaded outcome => exact s.handleLoaded_registers outcome
  | hideLoader generation =>
    show (s.handleHideLoader generation).Registers s
    unfold handleHideLoader
    split
    · exact .of_spares ((publishCurrent_remote roster_remote _).since rfl)
    · exact ⟨[], rfl⟩
  | settled cycle failure => exact .of_spares (s.handleSettled_unattempted now h)
  | debounceElapsed generation => exact .of_spares (s.handleDebounceElapsed_unattempted now h)
  | ask ticket request => exact s.handleRequest_registers now h

/-! ## Cycles that begin -/

/-- Where the beginning of a cycle cannot be shown its run does not start. -/
theorem beginCycle_falls {s s' : Scene} {trigger : Trigger} {waiters : List Ticket}
    (turn : s.beginCycle trigger waiters = .falls s') :
    s'.form.cycles = s.form.cycles + 1 ∧ s'.form.runs = s.form.runs := by
  rw [beginCycle_eq] at turn
  have shown := publish_quiet ((s.begun trigger waiters).showLoader.log
    (.began (s.form.nextRun trigger).cycle trigger)) .submitting
  generalize Scene.publish _ _ = t at shown turn
  cases t with
  | goesOn => cases turn
  | falls =>
    cases turn
    exact ⟨congrArg Custody.cycles shown, congrArg Custody.runs shown⟩

theorem beginCycle_registry (trigger : Trigger) (waiters : List Ticket) :
    (s.beginCycle trigger waiters).scene.form.registry = s.form.countCalls.registry := by
  have remote : Form.Remote Form.registry := fun _ => rfl
  rw [beginCycle_eq]
  exact Turn.Spares.andThen (publish_remote remote _ _) fun s' => rfl

/-- The end of a form leaves its runs to themselves. -/
theorem land_roster (t : Turn) : t.land.form.roster = t.scene.form.roster := by
  cases t with
  | goesOn s => rfl
  | falls s =>
    show s.close.form.roster = s.form.roster
    unfold close update Form.roster
    rw [releaseToken_form]

end Scene

/-- What the handling of a message does to the cycles of a form. -/
inductive Moment.Launches (a b : Moment) : Prop where
  | nothing (cycles : b.form.cycles = a.form.cycles) (runs : b.form.runs = a.form.runs)
  | falls {x : Attempt} (attempt : a.attempt? .handle = some x) (dead : b.form.alive = false)
      (cycles : b.form.cycles = a.form.cycles + 1) (runs : b.form.runs = a.form.runs)
  | starts {x : Attempt} (attempt : a.attempt? .handle = some x)
      (roster : x.scene.form.roster = a.form.roster) (store : x.scene.form.store = b.form.store)
      (cycles : b.form.cycles = a.form.cycles + 1)
      (runs : b.form.runs = a.form.runs ++ [x.scene.form.nextRun x.trigger])

theorem Moment.handle_launches {a b : Moment} (h : a.perform? .handle = some b) :
    a.Launches b := by
  obtain ⟨m, rest, mailbox, rfl⟩ := handle_eq_some h
  have head := attempt?_of_mailbox mailbox
  cases attempt : (a.scene.update fun f => { f with mailbox := rest }).attempt? a.now m with
  | none =>
    obtain ⟨_, same⟩ := Scene.handle_unattempted _ a.now attempt
    have same := (Scene.land_roster _).trans same
    exact .nothing (congrArg Roster.cycles same) (congrArg Roster.runs same)
  | some x =>
    have roster : x.scene.form.roster = a.form.roster :=
      (a.scene.update fun f => { f with mailbox := rest }).attempt?_roster a.now attempt
    have cycles : x.scene.form.cycles = a.form.cycles := congrArg Roster.cycles roster
    have runs : x.scene.form.runs = a.form.runs := congrArg Roster.runs roster
    rw [attempt] at head
    have made := Scene.handle_of_attempt _ a.now attempt
    rw [made]
    cases valid : x.errors.isEmpty with
    | false =>
      have halts := Scene.halt_remote roster_remote x.scene x.trigger x.waiters x.errors
      rw [← Attempt.make_eq_halt valid] at halts
      have same := (Scene.land_roster x.make).trans (halts.trans roster)
      exact .nothing (congrArg Roster.cycles same) (congrArg Roster.runs same)
    | true =>
      have begins : x.make = x.scene.beginCycle x.trigger x.waiters := if_pos valid
      cases turn : x.make with
      | goesOn s =>
        rcases Scene.startSubmission_flies turn with quiet | ⟨store, counted, flown, -⟩
        · have begun := Scene.beginCycle_goes (begins.symm.trans turn)
          have more := (congrArg Custody.cycles quiet).symm.trans (congrArg Custody.cycles begun)
          exact absurd more (Nat.ne_of_lt (Nat.lt_succ_self _))
        · exact .starts head roster store (counted.trans (congrArg (· + 1) cycles))
            (flown.trans (congrArg (· ++ [x.scene.form.nextRun x.trigger]) runs))
      | falls s =>
        have same := Scene.land_roster (.falls s)
        obtain ⟨counted, flown⟩ := Scene.beginCycle_falls (begins.symm.trans turn)
        refine .falls head rfl ?_ ?_
        · exact (congrArg Roster.cycles same).trans (counted.trans (congrArg (· + 1) cycles))
        · exact (congrArg Roster.runs same).trans (flown.trans runs)

theorem Form.post_roster (f : Form) (m : Message) : (f.post m).roster = f.roster := by
  unfold Form.post
  split <;> rfl

/-- Deeds other than the handling of messages change no more of the roster than the runs, and that
only if they start or end a call or finish a run. -/
theorem Moment.perform?_roster {a b : Moment} {d : Deed} (h : a.perform? d = some b)
    (handling : d ≠ .handle) : ∃ runs, b.form.roster = { a.form.roster with runs } ∧
      (runs = a.form.runs ∨ (∃ run call, d = .startCall run call) ∨
        (∃ run call, d = .endCall run call) ∨ ∃ run, d = .finishRun run) := by
  cases d with
  | handle => exact absurd rfl handling
  | startCall run call =>
    simp only [perform?, Scene.startCall?, Option.map_eq_some_iff] at h
    obtain ⟨_, ⟨c, -, rfl⟩, rfl⟩ := h
    exact ⟨_, rfl, .inr (.inl ⟨run, call, rfl⟩)⟩
  | endCall run call =>
    simp only [perform?, Scene.endCallAt?, Option.map_eq_some_iff] at h
    obtain ⟨_, ⟨c, -, rfl⟩, rfl⟩ := h
    exact ⟨_, rfl, .inr (.inr (.inl ⟨run, call, rfl⟩))⟩
  | finishRun run =>
    simp only [perform?, Scene.finishRunAt?, Option.map_eq_some_iff] at h
    obtain ⟨_, ⟨r, -, rfl⟩, rfl⟩ := h
    exact ⟨_, Form.post_roster _ _, .inr (.inr (.inr ⟨run, rfl⟩))⟩
  | close =>
    simp only [perform?, Option.ite_none_right_eq_some, Option.some.injEq] at h
    obtain ⟨-, rfl⟩ := h
    exact ⟨_, Scene.land_roster (.falls a.scene), .inl rfl⟩
  | pass | stop | share =>
    cases h
    exact ⟨_, rfl, .inl rfl⟩
  | change =>
    cases h
    exact ⟨_, Form.post_roster _ _, .inl rfl⟩
  | ask | straggle =>
    simp only [perform?, Option.ite_none_right_eq_some, Option.some.injEq] at h
    obtain ⟨-, rfl⟩ := h
    exact ⟨_, Form.post_roster _ _, .inl rfl⟩
  | fireDebounce | fireHide =>
    simp only [perform?, Scene.fireDebounce?, Scene.fireHide?, Option.map_eq_some_iff] at h
    obtain ⟨_, ⟨t, -, rfl⟩, rfl⟩ := h
    exact ⟨_, Form.post_roster _ _, .inl rfl⟩
  | finishLoad =>
    simp only [perform?, Scene.finishLoad?, Option.map_eq_some_iff] at h
    obtain ⟨_, ⟨l, -, rfl⟩, rfl⟩ := h
    cases l.outcome with
    | panics => exact ⟨_, rfl, .inl rfl⟩
    | values | fails => exact ⟨_, Form.post_roster _ _, .inl rfl⟩

theorem Moment.perform?_cycles {a b : Moment} {d : Deed} (h : a.perform? d = some b)
    (handling : d ≠ .handle) : b.form.cycles = a.form.cycles := by
  obtain ⟨_, same, -⟩ := perform?_roster h handling
  exact congrArg Roster.cycles same

/-- Once the end of a submission is reported no run is under way. -/
theorem Course.free_of_report {c : FormConfig} {now : Nat} {guard : UnloadGuard} {m : Moment}
    {log : Log} {cycle : Nat} {failure : Option SubmitError}
    (course : Course (.opening c now guard) log m)
    (report : .settled cycle failure ∈ m.form.mailbox) : m.form.runs = [] := by
  have alive := Moment.alive_of_heard (one_flight course) report
  have flights := congrArg List.length (one_flight_alive course alive)
  have told : 0 < (m.form.mailbox.filterMap Message.cycle?).length :=
    List.length_pos_of_mem (List.mem_filterMap.mpr ⟨_, report, rfl⟩)
  have few := Option.length_toList_le (o := m.form.pending.map Pending.cycle)
  simp only [Form.flights, List.length_append, List.length_map] at flights
  exact List.length_eq_zero_iff.mp (by omega)

/-- No run is under way where an attempt is made. -/
theorem Course.free_of_attempt {c : FormConfig} {now : Nat} {guard : UnloadGuard} {a : Moment}
    {log : Log} {x : Attempt} (course : Course (.opening c now guard) log a)
    (attempt : a.attempt? .handle = some x) : a.form.runs = [] := by
  cases mailbox : a.form.mailbox with
  | nil => simp [Moment.attempt?, mailbox] at attempt
  | cons m rest =>
    have heard : m ∈ a.form.mailbox := mailbox ▸ List.mem_cons_self
    rw [Moment.attempt?_of_mailbox mailbox] at attempt
    have none (free : a.form.pending = none) : a.form.runs = [] := by
      have flights := one_flight_alive course (Moment.alive_of_heard (one_flight course) heard)
      rw [free] at flights
      exact List.map_eq_nil_iff.mp (List.append_eq_nil_iff.mp flights).1
    unfold Scene.attempt? at attempt
    split at attempt
    · split at attempt
      · cases attempt
      · rename_i free
        exact none (Option.not_isSome_iff_eq_none.mp free)
    · split at attempt
      · rename_i ready
        exact none (Option.isNone_iff_eq_none.mp ready.2.2)
      · cases attempt
    · exact course.free_of_report heard
    · cases attempt

end LiveForm
