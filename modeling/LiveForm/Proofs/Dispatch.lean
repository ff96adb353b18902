import LiveForm.Proofs.Calls
import LiveForm.Proofs.Coverage
import LiveForm.Proofs.DirtyPaths

/-!
# Who is called in a cycle

A cycle calls the listeners of the fields that edits concern, in the order of their paths, and then the
handler. All of them see the same values.

* `Form.InOrder`, `Course.fields_inOrder`: fields stand in the order of their paths on every course;
* `Dispatch`, `Form.dispatches`: the listeners that take part in a cycle, with what they are given;
* `Form.mem_dispatches`: they are those of registered paths that have a value and are touched;
* `Run.Fails`, `Run.Unfolds`: each call of a run happens once, and what is reported is the first
  failure in their order;
* `listeners_dispatched`: so it is with every cycle that starts, whatever happens after that.
-/

set_option autoImplicit false

namespace LiveForm

/-! ## Fields in order -/

/-- The fields of a form stand in the order of their paths. -/
abbrev Form.InOrder (f : Form) : Prop := Assoc.Sorted f.registry.fields

theorem Form.InOrder.of_roster {f g : Form} (h : f.InOrder) (same : g.roster = f.roster) :
    g.InOrder := by
  have registry : g.registry = f.registry := congrArg Roster.registry same
  rw [Form.InOrder, registry]
  exact h

theorem Registry.sorted_foldl {r : Registry Listener Hook} (h : Assoc.Sorted r.fields)
    (operations : List (Operation Listener Hook)) :
    Assoc.Sorted (operations.foldl obey r).fields := by
  induction operations generalizing r with
  | nil => exact h
  | cons x rest ih => exact ih (sorted_obey h x)

theorem Attempt.make_inOrder {x : Attempt} (h : x.scene.form.InOrder) :
    x.make.scene.form.InOrder := by
  cases valid : x.errors.isEmpty with
  | false =>
    have halts := Scene.halt_remote roster_remote x.scene x.trigger x.waiters x.errors
    rw [← make_eq_halt valid] at halts
    exact h.of_roster halts
  | true =>
    have begins : x.make = x.scene.beginCycle x.trigger x.waiters := if_pos valid
    rw [begins, Form.InOrder, Scene.beginCycle_registry]
    exact List.pairwise_map.mpr h

theorem Scene.handle_inOrder {s : Scene} {now : Nat} {m : Message} (h : s.form.InOrder) :
    (s.handle now m).scene.form.InOrder := by
  cases attempt : s.attempt? now m with
  | none =>
    obtain ⟨operations, same⟩ := s.handle_unattempted now attempt
    have registry : (s.handle now m).scene.form.registry = _ := congrArg Roster.registry same
    rw [Form.InOrder, registry]
    exact Registry.sorted_foldl h operations
  | some x =>
    rw [s.handle_of_attempt now attempt]
    exact Attempt.make_inOrder (h.of_roster (s.attempt?_roster now attempt))

/-- Fields stand in the order of their paths on every course. -/
theorem Course.fields_inOrder {c : FormConfig} {now : Nat} {guard : UnloadGuard} {m : Moment}
    {log : Log} (course : Course (.opening c now guard) log m) : m.form.InOrder := by
  refine course.keeps (P := fun m => m.form.InOrder) (fun {a b d} done before => ?_) ?_
  · by_cases handling : d = .handle
    · subst handling
      obtain ⟨m, rest, -, rfl⟩ := Moment.handle_eq_some done
      have handled : Form.InOrder ((a.scene.update fun f => { f with mailbox := rest }).handle
          a.now m).scene.form := Scene.handle_inOrder before
      exact handled.of_roster (Scene.land_roster _)
    · obtain ⟨runs, same, -⟩ := Moment.perform?_roster done handling
      have registry : b.form.registry = a.form.registry := congrArg Roster.registry same
      rw [Form.InOrder, registry]
      exact before
  · have first : (Form.make c now).InOrder := .nil
    have shown := Scene.publishCurrent_remote roster_remote ⟨Form.make c now, guard⟩
    exact first.of_roster ((Scene.land_roster _).trans shown)

/-! ## Listeners that take part -/

/-- A listener at its path, with the value that it is given. -/
structure Dispatch where
  path : FieldPath
  listener : Listener
  value : Json

def Dispatch.call (x : Dispatch) : Call :=
  ⟨.listener x.listener.label x.value, x.listener.response, .waiting⟩

namespace Form

variable {f : Form}

def dispatches (f : Form) : List Dispatch :=
  f.registry.listeners.filterMap fun (p, l) =>
    if f.concerns p then (f.store.values.get? p).map fun v => ⟨p, l, v⟩ else none

theorem listenerCalls_eq (f : Form) : f.listenerCalls = f.dispatches.map Dispatch.call := by
  rw [listenerCalls, dispatches, List.map_filterMap]
  congr 1
  funext ⟨p, l⟩
  dsimp only [listenerCall?]
  split
  · rw [Option.map_map]
    rfl
  · rfl

theorem mem_dispatches (sorted : f.InOrder) {x : Dispatch} :
    x ∈ f.dispatches ↔ f.setup.autoSubmit = true ∧ f.registry.listener? x.path = some x.listener ∧
      f.store.values.get? x.path = some x.value ∧ f.store.dirty.touches x.path = true := by
  rw [dispatches, List.mem_filterMap]
  constructor
  · rintro ⟨⟨p, l⟩, inside, found⟩
    obtain ⟨concerned, found⟩ := Option.ite_none_right_eq_some.mp found
    obtain ⟨v, live, rfl⟩ := Option.map_eq_some_iff.mp found
    simp only [concerns, Bool.and_eq_true] at concerned
    exact ⟨concerned.1.1, (Registry.mem_listeners sorted).mp inside, live, concerned.1.2⟩
  · rintro ⟨auto, registered, live, touched⟩
    refine ⟨(x.path, x.listener), (Registry.mem_listeners sorted).mpr registered, ?_⟩
    have concerned : f.concerns x.path = true := by
      simp [concerns, auto, touched, Json.has, live]
    dsimp only
    rw [if_pos concerned, live]
    rfl

theorem dispatches_sorted (sorted : f.InOrder) :
    f.dispatches.Pairwise fun x y => x.path < y.path := by
  apply (Registry.listeners_sorted sorted).filterMap
  rintro ⟨p, l⟩ ⟨q, l'⟩ before x found y found'
  obtain ⟨-, found⟩ := Option.ite_none_right_eq_some.mp found
  obtain ⟨-, found'⟩ := Option.ite_none_right_eq_some.mp found'
  obtain ⟨v, -, rfl⟩ := Option.map_eq_some_iff.mp found
  obtain ⟨v', -, rfl⟩ := Option.map_eq_some_iff.mp found'
  exact before

end Form

/-! ## What becomes of a run -/

theorem Answer.failure?_eq_some {a : Answer} {e : SubmitError} :
    a.failure? = some e ↔
      a = .fails e ∨ ∃ text, a = .panics text ∧ e = .panicked (text.getD "handler panicked") := by
  cases a <;> simp [failure?, eq_comm]

/-- All calls accept up to the first that gives this failure. -/
def Run.Fails (r : Run) (e : SubmitError) : Prop :=
  ∃ before call after, r.calls = before ++ call :: after ∧
    (∀ c ∈ before, c.response.answer = .accepts) ∧ (call.response.answer = .fails e ∨
      ∃ text, call.response.answer = .panics text ∧
        e = .panicked (text.getD "handler panicked"))

theorem Run.failure?_eq_some {r : Run} {e : SubmitError} : r.failure? = some e ↔ r.Fails e := by
  rw [failure?, List.findSome?_eq_some_iff]
  constructor
  · rintro ⟨before, call, after, calls, failure, accept⟩
    exact ⟨before, call, after, calls, fun c among => Answer.failure?_eq_none.mp (accept c among),
      Answer.failure?_eq_some.mp failure⟩
  · rintro ⟨before, call, after, calls, accept, failure⟩
    exact ⟨before, call, after, calls, Answer.failure?_eq_some.mpr failure,
      fun c among => Answer.failure?_eq_none.mpr (accept c among)⟩

/-- What becomes of a run, after these deeds since its start. -/
structure Run.Unfolds (r : Run) (log : Log) (m : Moment) : Prop where
  /-- What starts and ends are calls of the run. -/
  called : ∀ e ∈ log.started r.cycle ++ log.ended r.cycle,
    (r.calls[e.1]?).map Call.callee = some e.2
  /-- None of them starts or ends twice. -/
  once : ((log.started r.cycle).map Prod.fst).Nodup ∧ ((log.ended r.cycle).map Prod.fst).Nodup
  /-- As long as the run goes on, a call that has not started can start. -/
  starts : r.cycle ∈ m.form.runs.map Run.cycle → ∀ k < r.calls.length,
    k ∉ (log.started r.cycle).map Prod.fst → ∃ b, m.perform? (.startCall 0 k) = some b
  /-- One that has started can end when its time has come. -/
  ends : r.cycle ∈ m.form.runs.map Run.cycle → ∀ k ∈ (log.started r.cycle).map Prod.fst,
    k ∉ (log.ended r.cycle).map Prod.fst →
      ∃ ms a, m.perform? (.pass ms) = some a ∧ ∃ b, a.perform? (.endCall 0 k) = some b
  /-- When all have ended, the end of the run can be reported. -/
  finishes : r.cycle ∈ m.form.runs.map Run.cycle →
    (∀ k < r.calls.length, k ∈ (log.ended r.cycle).map Prod.fst) →
      ∃ b failure, m.perform? (.finishRun 0) = some b ∧
        (m.form.alive = true → .settled r.cycle failure ∈ b.form.mailbox)
  /-- When the run is over, each call has started and ended. -/
  finished : r.cycle ∉ m.form.runs.map Run.cycle →
    ((log.started r.cycle).map Prod.fst).Perm (List.range r.calls.length) ∧
      ((log.ended r.cycle).map Prod.fst).Perm (List.range r.calls.length)
  /-- The end is reported only then: success iff all calls accept, and else the failure of the first
  call that does not. -/
  reports : ∀ failure, .settled r.cycle failure ∈ m.form.mailbox →
    r.cycle ∉ m.form.runs.map Run.cycle ∧
    (failure = none ↔ ∀ call ∈ r.calls, call.response.answer = .accepts) ∧
    ∀ e, failure = some e ↔ r.Fails e

section

variable {c : FormConfig} {now : Nat} {guard : UnloadGuard} {a b m z : Moment} {d : Deed}
  {log earlier later : Log} {r : Run}

/-- What comes of a run is settled when it starts. -/
theorem Course.verdict {cycle : Nat} {failure : Option SubmitError} (course : Course b later z)
    (first : b.form.Verdict cycle failure) (begun : cycle ≤ b.form.cycles)
    (alive : z.form.alive = true) : z.form.Verdict cycle failure := by
  induction course with
  | here => exact first
  | next before done ih =>
    have living := Moment.perform?_alive done alive
    exact (ih living).step done alive (Nat.le_trans begun (before.cycles living))

/-- A run unfolds in the same way whatever happens after its start. -/
theorem Course.unfolds (before : Course (.opening c now guard) earlier b) (runs : b.form.runs = [r])
    (begun : r.cycle ≤ b.form.cycles) (waiting : ∀ call ∈ r.calls, call.state = .waiting)
    (course : Course b later z) : r.Unfolds later z := by
  have few {log : Log} {m : Moment} (onward : Course b log m) : m.form.runs.length ≤ 1 :=
    (one_flight (before.append onward)).few
  have follows := course.follows begun runs waiting few
  refine ⟨fun e among => ?_, follows.distinct, fun going k => follows.starts going,
    fun going k => follows.ends going, fun going all => ?_, fun gone => ?_, fun failure report => ?_⟩
  · exact (List.mem_append.mp among).elim (follows.started e) (follows.ended e)
  · obtain ⟨b, finished, report⟩ := follows.finishes going all
    exact ⟨b, _, finished, report⟩
  · refine follows.all fun x among same => gone ?_
    exact same ▸ List.mem_map_of_mem among
  · have alive := Moment.alive_of_heard (one_flight (before.append course)) report
    have first : b.form.Verdict r.cycle r.failure? := by
      refine ⟨fun x among _ => ?_, fun failure told => ?_⟩
      · rw [runs] at among
        rw [List.mem_singleton.mp among]
      · have none := before.free_of_report told
        rw [runs] at none
        cases none
    obtain rfl := (course.verdict first begun alive).told failure report
    refine ⟨?_, Run.failure?_eq_none, fun e => Run.failure?_eq_some⟩
    rw [(before.append course).free_of_report report]
    exact List.not_mem_nil

/-- Marks bear leaves, also those of a form that has ended. -/
theorem Course.dirty_bearing (course : Course (.opening c now guard) log m) :
    DirtyTree.Bearing m.form.store.dirty.children := by
  have upheld := course.bearing
  cases alive : m.form.alive with
  | true => exact upheld.living alive
  | false =>
    obtain ⟨-, st, held, same, -⟩ := upheld.fallen alive
    have dirty : m.form.store.dirty = st.dirty := congrArg Standing.dirty same
    exact dirty ▸ held

/-- When a cycle begins, the form has fallen before anyone is called, or just one run starts. With
auto-submit it calls the listeners of the registered paths that have a value and are at, above or
below a dirty leaf, each once and in the order of the paths, and without it none; then it calls the
handler. All are given the same values. What comes of the run does not depend on when its calls end.
A path has a segment always; one without would stand for the whole form. -/
theorem listeners_dispatched (course : Course (.opening c now guard) log m)
    (done : m.perform? d = some b) (begins : b.form.cycles = m.form.cycles + 1) :
    b.form.alive = false ∧ b.form.runs = [] ∨ ∃ called trigger r,
      b.form.runs = [r] ∧ r.cycle = b.form.cycles ∧
      r.calls = called.map Dispatch.call ++ (m.form.handler.map fun h =>
        ⟨.handler ⟨submissionId r.cycle, b.form.store.values, b.form.store.dirtyValues, trigger⟩,
          h.response, .waiting⟩).toList ∧
      called.Pairwise (fun x y => x.path < y.path) ∧
      (∀ x, x ∈ called ↔ c.autoSubmit.enable = true ∧
        m.form.registry.listener? x.path = some x.listener ∧
        b.form.store.values.get? x.path = some x.value ∧
        (x.path.segments ≠ [] → ∃ q, b.form.store.dirty.HasLeaf q ∧
          (q <+: x.path.segments ∨ x.path.segments <+: q))) ∧
      (c.autoSubmit.enable = false → called = []) ∧
      ∀ later z, Course b later z → r.Unfolds later z := by
  have after := course.next done
  by_cases handling : d = .handle
  · subst handling
    obtain ⟨message, rest, mailbox, -⟩ := Moment.handle_eq_some done
    have alive := Moment.alive_of_heard (one_flight course) (mailbox ▸ List.mem_cons_self)
    cases Moment.handle_launches done with
    | nothing cycles => omega
    | falls attempt dead _ runs => exact .inl ⟨dead, runs.trans (course.free_of_attempt attempt)⟩
    | @starts x attempt roster store _ runs =>
      rw [course.free_of_attempt attempt, List.nil_append] at runs
      have cycles : x.scene.form.cycles = m.form.cycles := congrArg Roster.cycles roster
      have cycle : (x.scene.form.nextRun x.trigger).cycle = b.form.cycles := by
        rw [begins, ← cycles]
        rfl
      have setup : x.scene.form.setup.autoSubmit = c.autoSubmit.enable := by
        rw [show x.scene.form.setup = m.form.setup from congrArg Roster.setup roster,
          course.setup alive]
        rfl
      have registry : x.scene.form.registry = m.form.registry := congrArg Roster.registry roster
      have handler : x.scene.form.handler = m.form.handler := congrArg Roster.handler roster
      have sorted : x.scene.form.InOrder := course.fields_inOrder.of_roster roster
      have who (y : Dispatch) : y ∈ x.scene.form.dispatches ↔ c.autoSubmit.enable = true ∧
          m.form.registry.listener? y.path = some y.listener ∧
          b.form.store.values.get? y.path = some y.value ∧
          (y.path.segments ≠ [] → ∃ q, b.form.store.dirty.HasLeaf q ∧
            (q <+: y.path.segments ∨ y.path.segments <+: q)) := by
        rw [Form.mem_dispatches sorted, setup, registry, store,
          DirtyFields.touches_iff after.dirty_bearing]
      refine .inr ⟨x.scene.form.dispatches, x.trigger, _, runs, cycle, ?_,
        Form.dispatches_sorted sorted, who, fun off => ?_, fun later z onward => ?_⟩
      · rw [Form.nextRun, Form.listenerCalls_eq, Form.handlerCall, Form.submitData, handler, store]
        cases m.form.handler <;> rfl
      · refine List.eq_nil_iff_forall_not_mem.mpr fun y among => ?_
        have on := ((who y).mp among).1
        rw [off] at on
        cases on
      · exact after.unfolds runs (Nat.le_of_eq cycle) (Scene.nextRun_fresh _ _) onward
  · have same := Moment.perform?_cycles done handling
    omega

end

/-- Two of three fields are edited. The listener of the first one takes longer than that of the second
one, and both fail. However the calls end, the failure of the first is reported. -/
theorem listeners_dispatched_late :
    ∃ log m b r, Course (.opening (.sample ⟨true, some 50⟩
        (.obj [("from", .int 1), ("name", .int 0), ("to", .int 2)])) 0 .new) log m ∧
      m.perform? .handle = some b ∧ b.form.runs = [r] ∧
      r.calls.map Call.response =
        [⟨9, .panics none⟩, ⟨1, .fails (.rejected "too late")⟩, ⟨5, .accepts⟩] ∧
      ∀ later z, Course b later z → ∀ failure, .settled r.cycle failure ∈ z.form.mailbox →
        ((later.ended r.cycle).map Prod.fst).Perm [0, 1, 2] ∧
        failure = some (.panicked "handler panicked") := by
  obtain ⟨log, m, course, -, passed⟩ := Moment.course_of_test
    (.opening (.sample ⟨true, some 50⟩
      (.obj [("from", .int 1), ("name", .int 0), ("to", .int 2)])) 0 .new)
    [.ask 0 (.register ⟨["to"]⟩ ⟨some ⟨"to", [⟨1, .fails (.rejected "too late")⟩], 0⟩, [], none⟩),
      .handle, .ask 1 (.register ⟨["name"]⟩ ⟨some ⟨"name", [⟨2, .accepts⟩], 0⟩, [], none⟩), .handle,
      .ask 2 (.register ⟨["from"]⟩ ⟨some ⟨"from", [⟨9, .panics none⟩], 0⟩, [], none⟩), .handle,
      .change ⟨["to"]⟩ (.int 4), .handle, .change ⟨["from"]⟩ (.int 3), .handle, .ask 3 .submit]
    (fun _ m => (m.perform? .handle).any fun b => b.form.cycles == m.form.cycles + 1 &&
      b.form.alive && b.form.runs.all fun r => r.calls.map Call.response ==
        [⟨9, .panics none⟩, ⟨1, .fails (.rejected "too late")⟩, ⟨5, .accepts⟩])
    (by decide +kernel)
  simp only [Option.any_eq_true, Bool.and_eq_true, beq_iff_eq, List.all_eq_true] at passed
  obtain ⟨b, done, ⟨begins, alive⟩, responses⟩ := passed
  rcases listeners_dispatched course done begins with
    ⟨dead, -⟩ | ⟨called, trigger, r, runs, -, -, -, -, -, unfolds⟩
  · rw [alive] at dead
    cases dead
  · have responses := responses r (runs ▸ List.mem_singleton_self r)
    refine ⟨log, m, b, r, course, done, runs, responses, fun later z onward failure report => ?_⟩
    obtain ⟨gone, -, failed⟩ := (unfolds later z onward).reports failure report
    have length := congrArg List.length responses
    obtain ⟨call, rest, calls, response, -⟩ := List.map_eq_cons_iff.mp responses
    constructor
    · have all := ((unfolds later z onward).finished gone).2
      rw [List.length_map] at length
      rwa [length] at all
    · refine (failed _).mpr ⟨[], call, rest, calls, nofun, .inr ⟨none, ?_, rfl⟩⟩
      rw [response]

end LiveForm
