import LiveForm.Proofs.Flight

/-!
# The baseline holds what was acknowledged

The baseline of a form is what its host gave it last, or what a submission has carried that all it
called have answered with success. The end of any other submission changes nothing of the values, so
they can be submitted again as they are.

* `Log.Brings`, `Log.Installed`: which messages bring a new baseline, and the one brought last;
* `Course.settles`: an end that a form hears of is that of the submission in flight, and tells what
  its run came to;
* `Form.Hands`: what a submission hands to the handler;
* `baseline_acknowledged`: the main result.
-/

set_option autoImplicit false

namespace LiveForm

/-- A message brings values that are to be the baseline. -/
inductive Log.Brings (log : Log) : Message → Json → Prop where
  | loaded {values : Json} : Brings log (.loaded (.ok values)) values
  | reset {t : Ticket} {values : Json} : Brings log (.ask t (.reset (some values))) values
  | settled {cycle : Nat} {failure : Option SubmitError} {values : Json}
      (success : log.Succeeds cycle values) : Brings log (.settled cycle failure) values

/-- The values brought by the last message that brought any, at first the defaults. -/
inductive Log.Installed (defaults : Json) : Log → Json → Prop where
  | first : Installed defaults [] defaults
  | message {log : Log} {a : Moment} {d : Deed} {m : Message} {values : Json}
      (handles : a.act d = .handles m) (brings : log.Brings m values) :
      Installed defaults ((a, d) :: log) values
  | rest {log : Log} {a : Moment} {d : Deed} {values : Json}
      (none : ∀ m v, a.act d = .handles m → ¬log.Brings m v) (before : Installed defaults log values) :
      Installed defaults ((a, d) :: log) values

/-- The values that a form starts from; while they are being loaded there are none. -/
def FormConfig.initial (c : FormConfig) : Json :=
  match c.defaults with
  | .given values => values
  | .loaded _ _ => .emptyObject

namespace Store

variable {s s' : Store} {edits : List (FieldPath × Json)}

theorem rooted_rooted (v : Json) : rooted (rooted v) = rooted v := by
  cases v <;> rfl

theorem set?_baseline (s : Store) (p : FieldPath) (v : Json) (dirty : Bool) :
    ((s.set? p v dirty).getD s).baseline = s.baseline := by
  unfold set?
  cases s.values.set? p v <;> rfl

theorem commit?_baseline {base : Json} (h : commit? base edits = some s) :
    s.baseline = rooted base := by
  obtain ⟨merged, _, rfl⟩ := Option.map_eq_some_iff.mp h
  rfl

end Store

namespace Scene

variable {s s' : Scene}

theorem putStore_goes {store : Option Store} (h : s.putStore store = .goesOn s') :
    ∃ st, store = some st := by
  cases store with
  | none => cases h
  | some st => exact ⟨st, rfl⟩

/-- A form that goes on after a load has taken the values. -/
theorem handleLoaded_commits {values : Json} (turn : s.handleLoaded (.ok values) = .goesOn s') :
    ∃ st, Store.commit? values (s.form.liveEdits s.form.store.dirty.paths) = some st := by
  obtain ⟨s₁, taken, _⟩ := Turn.andThen_eq_goesOn turn
  obtain ⟨s₂, put, _⟩ := Turn.andThen_eq_goesOn taken
  exact putStore_goes put

/-- So has one that goes on after the success of a submission that counts. -/
theorem handleSettled_commits {now : Nat} {p : Pending}
    (turn : s.handleSettled now p.cycle none = .goesOn s') (flight : s.form.pending = some p)
    (counts : p.counts p.cycle = true) :
    ∃ st, Store.commit? p.values (s.form.liveEdits s.form.changedDuringSubmit) = some st := by
  obtain ⟨_, edited, current⟩ := Pending.counts_iff.mp counts
  unfold handleSettled at turn
  rw [flight] at turn
  dsimp only at turn
  rw [if_neg (not_not_intro rfl)] at turn
  obtain ⟨s₁, told, _⟩ := Turn.andThen_eq_goesOn turn
  unfold acknowledge at told
  simp only [edited, current, Bool.not_true, Bool.or_self, Bool.false_eq_true, if_false] at told
  obtain ⟨s₂, put, _⟩ := Turn.andThen_eq_goesOn told
  exact putStore_goes put

end Scene

section

variable {c : FormConfig} {now : Nat} {guard : UnloadGuard} {a b m : Moment} {d : Deed} {log : Log}
  {cycle : Nat} {failure : Option SubmitError}

/-- An end that is heard of is that of the submission in flight, and tells what its run came to. -/
theorem Course.settles (course : Course (.opening c now guard) log m)
    (handles : m.act d = .handles (.settled cycle failure)) :
    ∃ p b, m.form.pending = some p ∧ p.cycle = cycle ∧ p.Tracked log m.form b failure := by
  have alive := Moment.alive_of_handles (one_flight course) handles
  have told := Moment.mem_of_handles handles
  have flying : cycle ∈ m.form.flights :=
    List.mem_append_right _ (List.mem_filterMap.mpr ⟨_, told, rfl⟩)
  rw [one_flight_alive course alive, Option.mem_toList, Option.map_eq_some_iff] at flying
  obtain ⟨p, flight, rfl⟩ := flying
  obtain ⟨b, verdict, tracked⟩ := course.tracks alive flight
  obtain rfl := tracked.verdict.told failure told
  exact ⟨p, b, flight, rfl, tracked⟩

/-- The end of a submission that has not succeeded changes nothing of the values. -/
theorem Course.storeAfter_failed (course : Course (.opening c now guard) log m)
    (handles : m.act d = .handles (.settled cycle failure))
    (failed : ∀ values, ¬log.Succeeds cycle values) :
    m.form.storeAfter (.settled cycle failure) = m.form.store := by
  obtain ⟨p, b, flight, rfl, tracked⟩ := course.settles handles
  cases failure with
  | some e => rfl
  | none =>
    have idle : ¬p.counts p.cycle = true := by
      intro counts
      obtain ⟨_, edited, current⟩ := Pending.counts_iff.mp counts
      exact failed p.values (tracked.succeeds_iff.mpr ⟨edited, current, rfl, rfl⟩)
    simp only [Form.storeAfter, flight, if_neg idle]

/-- A form that goes on after a load has the loaded values as its baseline. -/
theorem Moment.loaded_baseline {values : Json} (h : a.perform? d = some b)
    (alive : b.form.alive = true) (handles : a.act d = .handles (.loaded (.ok values))) :
    b.form.store.baseline = Store.rooted values := by
  obtain ⟨rest, _, turn⟩ := Moment.handles_goesOn h handles alive
  obtain ⟨st, committed⟩ := Scene.handleLoaded_commits turn
  have committed : Store.commit? values (a.form.liveEdits a.form.store.dirty.paths) = some st :=
    committed
  rw [Moment.handles_store h handles, Form.storeAfter, committed]
  exact Store.commit?_baseline committed

/-- The end of a submission brings what it carried if it has succeeded, else nothing. -/
theorem Course.settled_baseline (course : Course (.opening c now guard) log a)
    (h : a.perform? d = some b) (alive : b.form.alive = true)
    (handles : a.act d = .handles (.settled cycle failure)) :
    (∃ values, log.Succeeds cycle values ∧ b.form.store.baseline = Store.rooted values) ∨
      (∀ values, ¬log.Succeeds cycle values) ∧ b.form.store = a.form.store := by
  obtain ⟨p, n, flight, rfl, tracked⟩ := course.settles handles
  by_cases success : log.Succeeds p.cycle p.values
  · obtain ⟨edited, current, rfl, -⟩ := tracked.succeeds_iff.mp success
    have counts := Pending.counts_iff.mpr ⟨rfl, edited, current⟩
    obtain ⟨rest, _, turn⟩ := Moment.handles_goesOn h handles alive
    obtain ⟨st, committed⟩ := Scene.handleSettled_commits turn flight counts
    have committed : Store.commit? p.values (a.form.liveEdits a.form.changedDuringSubmit) =
        some st := committed
    refine .inl ⟨p.values, success, ?_⟩
    rw [Moment.handles_store h handles]
    simp only [Form.storeAfter, flight, if_pos counts, committed]
    exact Store.commit?_baseline committed
  · have failed : ∀ values, ¬log.Succeeds p.cycle values := by
      intro values success'
      obtain ⟨-, -, -, rfl⟩ := tracked.succeeds_iff.mp success'
      exact success success'
    exact .inr ⟨failed, (Moment.handles_store h handles).trans (course.storeAfter_failed handles failed)⟩

/-- A deed takes the baseline that its message brings, and leaves it alone if there is none. -/
theorem Course.baseline_step (course : Course (.opening c now guard) log a)
    (h : a.perform? d = some b) (alive : b.form.alive = true) {defaults values : Json}
    (before : log.Installed defaults values) (base : a.form.store.baseline = Store.rooted values) :
    ∃ values', Log.Installed defaults ((a, d) :: log) values' ∧
      b.form.store.baseline = Store.rooted values' := by
  -- where nothing is brought, the baseline there is has to be kept
  have kept (none : ∀ m v, a.act d = .handles m → ¬log.Brings m v)
      (same : b.form.store.baseline = Store.rooted a.form.store.baseline) :
      ∃ values', Log.Installed defaults ((a, d) :: log) values' ∧
        b.form.store.baseline = Store.rooted values' :=
    ⟨values, .rest none before, by rw [same, base, Store.rooted_rooted]⟩
  have whole : a.form.store.baseline = Store.rooted a.form.store.baseline := by
    rw [base, Store.rooted_rooted]
  cases act : a.act d with
  | asks | other =>
    have aside : ∀ m, a.act d ≠ .handles m := by
      intro m handles
      cases act.symm.trans handles
    refine kept (fun m v handles => absurd handles (aside m)) ?_
    rw [Moment.perform?_store h aside]
    exact whole
  | handles m =>
    have store := Moment.handles_store h act
    have only {m' : Message} (handles : a.act d = .handles m') : m' = m :=
      Act.handles.inj (handles.symm.trans act)
    have quiet (none : ∀ v, ¬log.Brings m v)
        (same : (a.form.storeAfter m).baseline = Store.rooted a.form.store.baseline) :
        ∃ values', Log.Installed defaults ((a, d) :: log) values' ∧
          b.form.store.baseline = Store.rooted values' :=
      kept (fun m' v handles => only handles ▸ none v) (by rw [store, same])
    cases m with
    | fieldChanged path value =>
      exact quiet (by rintro v ⟨⟩) ((Store.set?_baseline _ _ _ _).trans whole)
    | debounceElapsed | hideLoader => exact quiet (by rintro v ⟨⟩) whole
    | loaded outcome =>
      cases outcome with
      | error e => exact quiet (by rintro v ⟨⟩) whole
      | ok loaded => exact ⟨loaded, .message act .loaded, Moment.loaded_baseline h alive act⟩
    | settled cycle failure =>
      rcases course.settled_baseline h alive act with ⟨v, success, brought⟩ | ⟨failed, same⟩
      · exact ⟨v, .message act (.settled success), brought⟩
      · refine quiet ?_ ?_
        · rintro v ⟨⟩
          exact failed v ‹_›
        · rw [← store, same]
          exact whole
    | ask t request =>
      cases request with
      | setValue path value dirty =>
        exact quiet (by rintro v ⟨⟩) ((Store.set?_baseline _ _ _ _).trans whole)
      | reset given =>
        cases given with
        | none => exact quiet (by rintro v ⟨⟩) rfl
        | some given => exact ⟨given, .message act .reset, congrArg Store.baseline store⟩
      | _ => exact quiet (by rintro v ⟨⟩) whole

theorem Moment.opening_store (c : FormConfig) (now : Nat) (guard : UnloadGuard) :
    (Moment.opening c now guard).form.store = .new c.initial := by
  have shown := Scene.publishCurrent_store ⟨Form.make c now, guard⟩
  refine (congrArg Content.store (Turn.Ends.land_content _)).trans (shown.trans ?_)
  unfold FormConfig.initial
  simp only [Form.make]
  cases c.defaults <;> rfl

theorem Course.baseline_installed (course : Course (.opening c now guard) log m)
    (alive : m.form.alive = true) :
    ∃ values, log.Installed c.initial values ∧ m.form.store.baseline = Store.rooted values := by
  induction course with
  | here =>
    refine ⟨c.initial, .first, ?_⟩
    rw [Moment.opening_store]
    rfl
  | next before done ih =>
    obtain ⟨values, installed, base⟩ := ih (Moment.perform?_alive done alive)
    exact before.baseline_step done alive installed base

/-! ## Another attempt -/

/-- What the handler is given. -/
def Callee.data? : Callee → Option SubmitData
  | .handler data => some data
  | .listener _ _ => none

/-- In the run of a cycle the handler is given this. -/
def Form.Hands (f : Form) (cycle : Nat) (data : SubmitData) : Prop :=
  ∃ r ∈ f.runs, r.cycle = cycle ∧ ∃ call ∈ r.calls, call.callee.data? = some data

/-- A run hands over what the form holds when it is made. -/
theorem Form.nextRun_hands {f : Form} {trigger : Trigger} {call : Call} {data : SubmitData}
    (among : call ∈ (f.nextRun trigger).calls) (callee : call.callee.data? = some data) :
    data = f.submitData trigger := by
  rcases List.mem_append.mp among with listener | handler
  · obtain ⟨x, _, made⟩ := List.mem_filterMap.mp listener
    simp only [listenerCall?, Option.ite_none_right_eq_some, Option.map_eq_some_iff] at made
    obtain ⟨_, v, _, rfl⟩ := made
    cases callee
  · unfold handlerCall at handler
    split at handler
    · rw [List.mem_singleton.mp handler] at callee
      cases callee
      rfl
    · cases handler

/-- Messages that change nothing of the values leave the store as it was. -/
theorem Course.store_kept {start : Moment} (course : Course start log m)
    (quiet : ∀ x ∈ log, ∀ message, x.1.act x.2 = .handles message → message.isQuiet = true) :
    m.form.store = start.form.store := by
  induction course with
  | here => rfl
  | @next log a b d _ done ih =>
    have before := ih fun x among => quiet x (List.mem_cons_of_mem _ among)
    refine Eq.trans ?_ before
    cases act : a.act d with
    | handles message =>
      rw [Moment.handles_store done act]
      exact a.form.storeAfter_quiet (quiet _ List.mem_cons_self message act)
    | asks | other =>
      refine Moment.perform?_store done ?_
      intro message handles
      cases act.symm.trans handles

/-- What a submission hands over is what was there when it began. -/
theorem Course.hands (course : Course (.opening c now guard) log m) (alive : m.form.alive = true)
    (began : log.Began cycle b) {data : SubmitData} (hands : b.form.Hands cycle data) :
    data.values = b.form.store.values ∧ data.dirtyValues = b.form.store.dirtyValues := by
  obtain ⟨⟨a, d⟩, earlier, parts, before, done⟩ := began.split
  obtain rfl := began.counted
  have course : Course (.opening c now guard)
    (log.since b.form.cycles ++ (a, d) :: earlier) m := parts ▸ course
  obtain ⟨b', first, done', after⟩ := course.split
  obtain rfl := Option.some.inj (done.symm.trans done')
  have living := after.alive_before alive
  obtain ⟨r, among, same, call, inside, callee⟩ := hands
  rcases Moment.perform?_flight done living with
    ⟨cycles, _⟩ | ⟨start, trigger, waiters, last, store, cycles, runs, pending⟩
  · exact absurd (cycles ▸ before) (Nat.lt_irrefl _)
  · have flights : b.form.flights = [start.cycles + 1] := by
      rw [one_flight_alive (first.next done) living, pending]
      rfl
    rw [(Form.alone_of_begun runs flights).1] at among
    rw [List.mem_singleton.mp among] at inside
    rw [Form.nextRun_hands inside callee, ← store]
    exact ⟨rfl, rfl⟩

/-- The store is still as it was when a submission began, if nothing was handled since that changes
it. -/
theorem Course.store_since (course : Course (.opening c now guard) log m)
    (began : log.Began cycle b)
    (quiet : ∀ x ∈ log.since cycle, ∀ message, x.1.act x.2 = .handles message →
      message.isQuiet = true) : m.form.store = b.form.store := by
  obtain ⟨⟨a, d⟩, earlier, parts, _, done⟩ := began.split
  have course : Course (.opening c now guard)
    (log.since cycle ++ (a, d) :: earlier) m := parts ▸ course
  obtain ⟨b', _, done', after⟩ := course.split
  obtain rfl := Option.some.inj (done.symm.trans done')
  exact after.store_kept quiet

end

/-! ## The main result -/

/-- As long as a form lives its baseline is what was installed last: the defaults it started from,
loaded values, those of a reset, or what a submission carried that has succeeded. The end of any
other submission leaves the values, the baseline and the marks alone. So if nothing else has changed
them since a submission began, the next one hands the same to the handler. -/
theorem baseline_acknowledged {c : FormConfig} {now : Nat} {guard : UnloadGuard} {m : Moment}
    {log : Log} (course : Course (.opening c now guard) log m) :
    (m.form.alive = true → ∃ values, log.Installed c.initial values ∧
      m.form.store.baseline = Store.rooted values) ∧
    (∀ d cycle failure, m.act d = .handles (.settled cycle failure) →
      (∀ values, ¬log.Succeeds cycle values) →
        ∃ m', m.perform? d = some m' ∧ m'.form.store = m.form.store) ∧
    (m.form.alive = true → ∀ cycle cycle' first again, cycle ≤ cycle' →
      log.Began cycle first → log.Began cycle' again →
      (∀ x ∈ log.since cycle, ∀ message, x.1.act x.2 = .handles message → message.isQuiet = true) →
      ∀ data data', first.form.Hands cycle data → again.form.Hands cycle' data' →
        data'.values = data.values ∧ data'.dirtyValues = data.dirtyValues) := by
  refine ⟨course.baseline_installed, ?_, ?_⟩
  · intro d cycle failure handles failed
    obtain ⟨rest, _, done⟩ := Moment.perform?_of_handles handles
    refine ⟨_, done, ?_⟩
    rw [Moment.handles_store done handles, course.storeAfter_failed handles failed]
  · intro alive cycle cycle' first again le began began' quiet data data' hands hands'
    have since := course.store_since began quiet
    have since' := course.store_since began' fun x among => quiet x (Log.since_subset le x among)
    have same : again.form.store = first.form.store := since'.symm.trans since
    obtain ⟨values, dirtyValues⟩ := course.hands alive began hands
    obtain ⟨values', dirtyValues'⟩ := course.hands alive began' hands'
    constructor
    · rw [values', same, values]
    · rw [dirtyValues', same, dirtyValues]

/-- A renamed entry is refused twice. The name that was there stays the baseline, and the second
time the handler is given what it was given the first time. -/
theorem baseline_acknowledged_refused :
    ∃ log m m' first again data data' values,
      Course (.opening { FormConfig.sample ⟨false, none⟩ (.obj [("name", .str "old")]) with
        handler := some [⟨5, .fails (.rejected "taken")⟩] } 0 .new) log m ∧
      log.Installed (.obj [("name", .str "old")]) values ∧
      m.form.store.baseline = Store.rooted values ∧ m.perform? .handle = some m' ∧
      m'.form.store = m.form.store ∧ log.Began 1 first ∧ log.Began 2 again ∧
      first.form.Hands 1 data ∧ again.form.Hands 2 data' ∧ data'.values = data.values ∧
      data'.dirtyValues = data.dirtyValues := by
  obtain ⟨log, m, course, -, passed⟩ := Moment.course_of_test
    (.opening { FormConfig.sample ⟨false, none⟩ (.obj [("name", .str "old")]) with
      handler := some [⟨5, .fails (.rejected "taken")⟩] } 0 .new)
    [.change ⟨["name"]⟩ (.str "new"), .handle, .ask 0 .submit, .handle, .startCall 0 0, .pass 5,
      .endCall 0 0, .finishRun 0, .handle, .ask 1 .submit, .handle, .startCall 0 0, .pass 5,
      .endCall 0 0, .finishRun 0]
    (fun log m =>
      m.form.alive && (m.act .handle).isHandling (fun s => s.cycle? == some 2) &&
      [1, 2].all (fun cycle => (log.beginning? cycle).any fun b =>
        b.form.cycles == cycle && b.form.runs.any fun r => r.cycle == cycle &&
          r.calls.any fun call => call.callee.data?.isSome && call.response.answer != .accepts) &&
      (log.since 1).all fun x => !(x.1.act x.2).isHandling fun s => !s.isQuiet)
    (by decide +kernel)
  simp only [Bool.and_eq_true, Act.isHandling_iff, beq_iff_eq, Message.cycle?_eq_some,
    List.all_eq_true, Option.any_eq_true, List.any_eq_true, bne_iff_ne,
    Option.isSome_iff_exists] at passed
  obtain ⟨⟨⟨alive, _, handles, failure, rfl⟩, begun⟩, quiet⟩ := passed
  obtain ⟨first, led, counted, r, run, of, call, inside, ⟨data, callee⟩, _⟩ := begun 1 (by decide)
  obtain ⟨again, led', counted', r', run', of', call', inside', ⟨data', callee'⟩, refuses⟩ :=
    begun 2 (by decide)
  have began : log.Began 1 first := ⟨led, counted⟩
  have began' : log.Began 2 again := ⟨led', counted'⟩
  have hands : first.form.Hands 1 data := ⟨r, run, of, call, inside, callee⟩
  have hands' : again.form.Hands 2 data' := ⟨r', run', of', call', inside', callee'⟩
  obtain ⟨installed, ends, hand⟩ := baseline_acknowledged course
  obtain ⟨values, last, base⟩ := installed alive
  obtain ⟨m', done, kept⟩ := ends .handle 2 failure handles (began'.refused run' of' inside' refuses)
  obtain ⟨same, sameDirty⟩ := hand alive 1 2 first again (by decide) began began' (by
    intro x among message told
    simpa [told, Act.isHandling] using quiet x among) data data' hands hands'
  exact ⟨log, m, m', first, again, data, data', values, course, last, base, done, kept, began,
    began', hands, hands', same, sameDirty⟩

end LiveForm
