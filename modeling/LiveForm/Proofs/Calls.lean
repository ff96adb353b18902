import Mathlib.Data.List.Nodup
import LiveForm.Proofs.Starting

/-!
# The calls of a run

The calls of a run start and end one by one, in any order, also when their form has ended meanwhile.

* `Log.started`, `Log.ended`: the calls of a cycle that have started and ended, by their places;
* `Form.Stands`: each call of a run has started and ended as often as its state tells, and when the
  run is over all calls have;
* `Form.Stands.step`: every deed keeps it so;
* `Course.follows`: so from its start on a run can be followed;
* `Moment.Follows.distinct`, `Moment.Follows.all`: no call happens twice, and when the run is over
  each has happened once;
* `Moment.Follows.starts`, `Moment.Follows.ends`, `Moment.Follows.finishes`: until then the run can
  go on.
-/

set_option autoImplicit false

namespace LiveForm

/-- The call at a place, with who is called, if its run is that of the cycle. -/
def Form.callee? (f : Form) (cycle run call : Nat) : Option (Nat × Callee) :=
  (f.runs[run]?.filter fun r => r.cycle = cycle).bind fun r =>
    r.calls[call]?.map fun c => (call, c.callee)

/-- The call of a cycle that a deed starts. -/
def Moment.started? (m : Moment) (cycle : Nat) : Deed → Option (Nat × Callee)
  | .startCall run call => m.form.callee? cycle run call
  | _ => none

/-- The call of a cycle that a deed ends. -/
def Moment.ended? (m : Moment) (cycle : Nat) : Deed → Option (Nat × Callee)
  | .endCall run call => m.form.callee? cycle run call
  | _ => none

namespace Log

/-- The calls of a cycle that have started, the last one first. -/
def started (cycle : Nat) (log : Log) : List (Nat × Callee) :=
  log.filterMap fun x => x.1.started? cycle x.2

/-- The calls of a cycle that have ended, the last one first. -/
def ended (cycle : Nat) (log : Log) : List (Nat × Callee) :=
  log.filterMap fun x => x.1.ended? cycle x.2

variable {cycle : Nat} {x : Moment × Deed} {log : Log} {e : Nat × Callee}

theorem started_none (h : x.1.started? cycle x.2 = none) :
    started cycle (x :: log) = log.started cycle :=
  List.filterMap_cons_none h

theorem started_some (h : x.1.started? cycle x.2 = some e) :
    started cycle (x :: log) = e :: log.started cycle :=
  List.filterMap_cons_some h

theorem ended_none (h : x.1.ended? cycle x.2 = none) :
    ended cycle (x :: log) = log.ended cycle :=
  List.filterMap_cons_none h

theorem ended_some (h : x.1.ended? cycle x.2 = some e) :
    ended cycle (x :: log) = e :: log.ended cycle :=
  List.filterMap_cons_some h

end Log

/-- How often a call in this state has started. -/
def CallState.starts : CallState → Nat
  | .waiting => 0
  | _ => 1

/-- How often a call in this state has ended. -/
def CallState.ends : CallState → Nat
  | .ended => 1
  | _ => 0

/-- Who is called, and what the answer will be. -/
def Call.offer (c : Call) : Callee × Response := (c.callee, c.response)

/-- Where a run stands that started with the calls of `r`, after calls have started and ended. -/
inductive Form.Stands (f : Form) (r : Run) (started ended : List (Nat × Callee)) : Prop where
  | goes {calls : List Call} (runs : f.runs = [{ r with calls }])
      (same : calls.map Call.offer = r.calls.map Call.offer)
      (counts : ∀ k c, calls[k]? = some c → (started.map Prod.fst).count k = c.state.starts ∧
        (ended.map Prod.fst).count k = c.state.ends)
  | finished (gone : ∀ x ∈ f.runs, x.cycle ≠ r.cycle)
      (once : ∀ k < r.calls.length, (started.map Prod.fst).count k = 1 ∧
        (ended.map Prod.fst).count k = 1)

namespace Form

variable {f g : Form} {r x : Run} {started ended started' ended' : List (Nat × Callee)}
  {run k : Nat} {c c' : Call} {calls : List Call}

theorem Stands.congr (h : f.Stands r started ended) (runs : g.runs = f.runs) :
    g.Stands r started ended := by
  cases h with
  | goes here same counts => exact .goes (runs.trans here) same counts
  | finished gone once => exact .finished (runs ▸ gone) once

theorem call?_single (single : f.runs = [x]) (found : f.call? run k = some c) :
    run = 0 ∧ x.calls[k]? = some c := by
  obtain ⟨y, there, found⟩ := Option.bind_eq_some_iff.mp found
  rw [single] at there
  cases run with
  | zero =>
    cases there
    exact ⟨rfl, found⟩
  | succ run => cases there

theorem callee?_single (single : f.runs = [x]) (found : x.calls[k]? = some c) :
    f.callee? x.cycle 0 k = some (k, c.callee) := by
  simp [callee?, single, Option.filter, found]

theorem callee?_gone {cycle : Nat} (gone : ∀ x ∈ f.runs, x.cycle ≠ cycle) :
    f.callee? cycle run k = none := by
  have none : (f.runs[run]?.filter fun r => r.cycle = cycle) = none := by
    rw [Option.filter_eq_none_iff]
    intro y there
    simpa using gone y (List.mem_of_getElem? there)
  rw [callee?, none, Option.bind_none]

theorem putCall_gone {cycle : Nat} (gone : ∀ x ∈ f.runs, x.cycle ≠ cycle) :
    ∀ x ∈ (f.putCall run k c).runs, x.cycle ≠ cycle := by
  intro x inside
  have among : x.cycle ∈ f.runs.map Run.cycle :=
    f.putCall_cycles run k c ▸ List.mem_map_of_mem (f := Run.cycle) inside
  obtain ⟨y, inside, same⟩ := List.mem_map.mp among
  exact same ▸ gone y inside

theorem putCall_single (single : f.runs = [{ r with calls }]) :
    (f.putCall 0 k c).runs = [{ r with calls := calls.set k c }] := by
  simp [putCall, single]

theorem length_of_offers (same : calls.map Call.offer = r.calls.map Call.offer) :
    calls.length = r.calls.length := by
  rw [← List.length_map Call.offer, same, List.length_map]

/-- No call starts or ends twice. -/
theorem Stands.once (h : f.Stands r started ended) :
    ∀ k < r.calls.length,
      (started.map Prod.fst).count k ≤ 1 ∧ (ended.map Prod.fst).count k ≤ 1 := by
  intro k inside
  cases h with
  | finished _ once => exact ⟨Nat.le_of_eq (once k inside).1, Nat.le_of_eq (once k inside).2⟩
  | @goes calls _ same counts =>
    have bound : k < calls.length := length_of_offers same ▸ inside
    have there := List.getElem?_eq_getElem bound
    obtain ⟨starts, ends⟩ := counts k _ there
    rw [starts, ends]
    cases calls[k].state <;> simp [CallState.starts, CallState.ends]

/-- A call of a run takes its next step, and the others stay as they are. -/
theorem Stands.put (single : f.runs = [{ r with calls }])
    (same : calls.map Call.offer = r.calls.map Call.offer)
    (counts : ∀ k c, calls[k]? = some c → (started.map Prod.fst).count k = c.state.starts ∧
      (ended.map Prod.fst).count k = c.state.ends)
    (found : calls[k]? = some c) (offer : c'.offer = c.offer)
    (own : (started'.map Prod.fst).count k = c'.state.starts ∧
      (ended'.map Prod.fst).count k = c'.state.ends)
    (others : ∀ j, j ≠ k → (started'.map Prod.fst).count j = (started.map Prod.fst).count j ∧
      (ended'.map Prod.fst).count j = (ended.map Prod.fst).count j) :
    (f.putCall 0 k c').Stands r started' ended' := by
  obtain ⟨inside, rfl⟩ := List.getElem?_eq_some_iff.mp found
  refine .goes (putCall_single single) ?_ fun j d there => ?_
  · rw [List.map_set, offer, ← List.getElem_map Call.offer (h := by simpa using inside),
      List.set_getElem_self, same]
  · by_cases here : j = k
    · subst here
      rw [List.getElem?_set_self inside] at there
      cases there
      exact own
    · rw [List.getElem?_set_ne (Ne.symm here)] at there
      obtain ⟨starts, ends⟩ := others j here
      rw [starts, ends]
      exact counts j d there

end Form

/-! ## Deeds -/

section

variable {a b m : Moment} {d : Deed} {log : Log} {r : Run}

theorem Form.Stands.startCall {run call : Nat}
    (stands : a.form.Stands r (log.started r.cycle) (log.ended r.cycle))
    (h : a.perform? (.startCall run call) = some b) :
    b.form.Stands r (Log.started r.cycle ((a, .startCall run call) :: log))
      (Log.ended r.cycle ((a, .startCall run call) :: log)) := by
  rw [Log.ended_none (x := (a, .startCall run call)) rfl]
  simp only [Moment.perform?, Scene.startCall?, Option.map_eq_some_iff,
    Option.filter_eq_some_iff] at h
  obtain ⟨_, ⟨c, ⟨found, waiting⟩, rfl⟩, rfl⟩ := h
  have waiting : c.state = .waiting := by simpa using waiting
  cases stands with
  | finished gone once =>
    have none : a.started? r.cycle (.startCall run call) = none := Form.callee?_gone gone
    rw [Log.started_none (x := (a, .startCall run call)) none]
    exact .finished (Form.putCall_gone gone) once
  | @goes calls single same counts =>
    obtain ⟨rfl, there⟩ := Form.call?_single single found
    have some : a.started? r.cycle (.startCall 0 call) = some (call, c.callee) :=
      Form.callee?_single (x := { r with calls }) single there
    rw [Log.started_some (x := (a, .startCall 0 call)) some]
    have begun : c.start a.now = { c with state := .running (a.now + c.response.latency) } :=
      if_pos waiting
    have before := counts call c there
    rw [waiting] at before
    rw [begun]
    have put : (a.form.putCall 0 call
        { c with state := .running (a.now + c.response.latency) }).Stands r
          ((call, c.callee) :: log.started r.cycle) (log.ended r.cycle) := by
      refine .put single same counts there rfl ⟨?_, before.2⟩ fun j other => ⟨?_, rfl⟩
      · simp [before.1, CallState.starts]
      · simp [Ne.symm other]
    exact put.congr rfl

theorem Form.Stands.endCall {run call : Nat}
    (stands : a.form.Stands r (log.started r.cycle) (log.ended r.cycle))
    (h : a.perform? (.endCall run call) = some b) :
    b.form.Stands r (Log.started r.cycle ((a, .endCall run call) :: log))
      (Log.ended r.cycle ((a, .endCall run call) :: log)) := by
  rw [Log.started_none (x := (a, .endCall run call)) rfl]
  simp only [Moment.perform?, Scene.endCallAt?, Option.map_eq_some_iff,
    Option.filter_eq_some_iff] at h
  obtain ⟨_, ⟨c, ⟨found, due⟩, rfl⟩, rfl⟩ := h
  obtain ⟨time, running⟩ : ∃ time, c.state = .running time := by
    cases state : c.state with
    | running time => exact ⟨time, rfl⟩
    | waiting | ended => simp [Call.isDue, Call.due?, state] at due
  cases stands with
  | finished gone once =>
    have none : a.ended? r.cycle (.endCall run call) = none := Form.callee?_gone gone
    rw [Log.ended_none (x := (a, .endCall run call)) none]
    exact .finished (Form.putCall_gone gone) once
  | @goes calls single same counts =>
    obtain ⟨rfl, there⟩ := Form.call?_single single found
    have some : a.ended? r.cycle (.endCall 0 call) = some (call, c.callee) :=
      Form.callee?_single (x := { r with calls }) single there
    rw [Log.ended_some (x := (a, .endCall 0 call)) some]
    have before := counts call c there
    rw [running] at before
    have put : (a.form.putCall 0 call { c with state := .ended }).Stands r
        (log.started r.cycle) ((call, c.callee) :: log.ended r.cycle) := by
      refine .put single same counts there rfl ⟨before.1, ?_⟩ fun j other => ⟨rfl, ?_⟩
      · simp [before.2, CallState.ends]
      · simp [Ne.symm other]
    exact put.congr rfl

theorem Form.Stands.finishRun {run : Nat}
    (stands : a.form.Stands r (log.started r.cycle) (log.ended r.cycle))
    (h : a.perform? (.finishRun run) = some b) :
    b.form.Stands r (log.started r.cycle) (log.ended r.cycle) := by
  simp only [Moment.perform?, Scene.finishRunAt?, Option.map_eq_some_iff,
    Option.filter_eq_some_iff] at h
  obtain ⟨_, ⟨x, ⟨found, finished⟩, rfl⟩, rfl⟩ := h
  have runs := congrArg Roster.runs (Form.post_roster
    { a.form with runs := a.form.runs.eraseIdx run } (.settled x.cycle x.failure?))
  cases stands with
  | finished gone once =>
    exact (Form.Stands.finished (f := { a.form with runs := a.form.runs.eraseIdx run })
      (fun y inside => gone y (List.mem_of_mem_eraseIdx inside)) once).congr runs
  | @goes calls single same counts =>
    have single : a.form.runs = [{ r with calls }] := single
    have found : a.form.runs[run]? = some x := found
    rw [single] at found
    cases run with
    | succ run => cases found
    | zero =>
      cases found
      refine (Form.Stands.finished (f := { a.form with runs := a.form.runs.eraseIdx 0 })
        ?_ ?_).congr runs
      · simp [single]
      · intro k inside
        have bound : k < calls.length := length_of_offers same ▸ inside
        have there := List.getElem?_eq_getElem bound
        have ended : calls[k].state = .ended := by
          have shut : ∀ c ∈ calls, c.isOpen = false := by simpa [Run.isFinished] using finished
          simpa [Call.isOpen] using shut _ (List.getElem_mem _)
        have count := counts k _ there
        rw [ended] at count
        exact count

theorem Form.Stands.handle
    (stands : a.form.Stands r (log.started r.cycle) (log.ended r.cycle))
    (h : a.perform? .handle = some b) (few : b.form.runs.length ≤ 1)
    (begun : r.cycle ≤ a.form.cycles) :
    b.form.Stands r (log.started r.cycle) (log.ended r.cycle) := by
  cases Moment.handle_launches h with
  | nothing _ runs | falls _ _ _ runs => exact stands.congr runs
  | @starts x _ roster _ _ runs =>
    cases stands with
    | goes single =>
      rw [runs, single] at few
      simp at few
    | finished gone once =>
      refine .finished (fun y inside => ?_) once
      rw [runs] at inside
      rcases List.mem_append.mp inside with old | new
      · exact gone y old
      · rw [List.mem_singleton.mp new]
        have last : x.scene.form.cycles = a.form.cycles := congrArg Roster.cycles roster
        show x.scene.form.cycles + 1 ≠ r.cycle
        omega

/-- Every deed keeps the count of the calls. -/
theorem Form.Stands.step (stands : a.form.Stands r (log.started r.cycle) (log.ended r.cycle))
    (h : a.perform? d = some b) (few : b.form.runs.length ≤ 1) (begun : r.cycle ≤ a.form.cycles) :
    b.form.Stands r (Log.started r.cycle ((a, d) :: log)) (Log.ended r.cycle ((a, d) :: log)) := by
  cases d with
  | startCall run call => exact stands.startCall h
  | endCall run call => exact stands.endCall h
  | finishRun run => exact stands.finishRun h
  | handle => exact stands.handle h few begun
  | _ =>
    obtain ⟨runs, same, rest⟩ := Moment.perform?_roster h nofun
    have kept : runs = a.form.runs := by simpa using rest
    exact stands.congr ((congrArg Roster.runs same).trans kept)

/-- Only calls of the run are counted. -/
theorem Form.Stands.known {f : Form} {started ended : List (Nat × Callee)} {run call : Nat}
    {e : Nat × Callee} (stands : f.Stands r started ended)
    (found : f.callee? r.cycle run call = some e) :
    (r.calls[e.1]?).map Call.callee = some e.2 := by
  cases stands with
  | finished gone _ =>
    rw [Form.callee?_gone gone] at found
    cases found
  | @goes calls single same _ =>
    obtain ⟨x, filtered, found⟩ := Option.bind_eq_some_iff.mp found
    obtain ⟨there, -⟩ := Option.filter_eq_some_iff.mp filtered
    rw [single] at there
    obtain rfl : x = { r with calls } := List.mem_singleton.mp (List.mem_of_getElem? there)
    obtain ⟨c, place, rfl⟩ := Option.map_eq_some_iff.mp found
    have offers := congrArg (·[call]?) same
    simp only [List.getElem?_map, place, Option.map_some] at offers
    obtain ⟨c₀, place₀, offer⟩ := Option.map_eq_some_iff.mp offers.symm
    simp only [place₀, Option.map_some]
    exact congrArg (fun o : Callee × Response => some o.1) offer

end

/-! ## Along a course -/

/-- What is known of a run in a moment after it has started. -/
structure Moment.Follows (m : Moment) (r : Run) (log : Log) : Prop where
  begun : r.cycle ≤ m.form.cycles
  stands : m.form.Stands r (log.started r.cycle) (log.ended r.cycle)
  started : ∀ e ∈ log.started r.cycle, (r.calls[e.1]?).map Call.callee = some e.2
  ended : ∀ e ∈ log.ended r.cycle, (r.calls[e.1]?).map Call.callee = some e.2

section

variable {a b m : Moment} {d : Deed} {log : Log} {r : Run}

theorem Moment.Follows.step (follows : a.Follows r log) (h : a.perform? d = some b)
    (few : b.form.runs.length ≤ 1) : b.Follows r ((a, d) :: log) where
  begun := by
    refine Nat.le_trans follows.begun ?_
    by_cases handling : d = .handle
    · subst handling
      cases Moment.handle_launches h with
      | nothing cycles => exact Nat.le_of_eq cycles.symm
      | falls _ _ cycles | starts _ _ _ cycles => omega
    · exact Nat.le_of_eq (Moment.perform?_cycles h handling).symm
  stands := follows.stands.step h few follows.begun
  started e inside := by
    obtain ⟨x, logged, found⟩ := List.mem_filterMap.mp inside
    rcases List.mem_cons.mp logged with rfl | before
    · cases d with
      | startCall run call => exact follows.stands.known found
      | _ => cases found
    · exact follows.started e (List.mem_filterMap.mpr ⟨x, before, found⟩)
  ended e inside := by
    obtain ⟨x, logged, found⟩ := List.mem_filterMap.mp inside
    rcases List.mem_cons.mp logged with rfl | before
    · cases d with
      | endCall run call => exact follows.stands.known found
      | _ => cases found
    · exact follows.ended e (List.mem_filterMap.mpr ⟨x, before, found⟩)

/-- From its start on a run can be followed. -/
theorem Course.follows (course : Course b log m) (begun : r.cycle ≤ b.form.cycles)
    (runs : b.form.runs = [r]) (waiting : ∀ c ∈ r.calls, c.state = .waiting)
    (few : ∀ {log m}, Course b log m → m.form.runs.length ≤ 1) : m.Follows r log := by
  induction course with
  | here =>
    refine ⟨begun, .goes runs rfl fun k c there => ?_, nofun, nofun⟩
    rw [waiting c (List.mem_of_getElem? there)]
    exact ⟨rfl, rfl⟩
  | next before done ih => exact ih.step done (few (before.next done))

namespace Moment.Follows

theorem place_of_known {places : List (Nat × Callee)}
    (known : ∀ e ∈ places, (r.calls[e.1]?).map Call.callee = some e.2) {k : Nat}
    (there : k ∈ places.map Prod.fst) : k < r.calls.length := by
  obtain ⟨e, among, rfl⟩ := List.mem_map.mp there
  obtain ⟨c, place, -⟩ := Option.map_eq_some_iff.mp (known e among)
  exact (List.getElem?_eq_some_iff.mp place).1

/-- Places are all different that are places of calls and counted once at most. -/
theorem nodup_of_known {places : List (Nat × Callee)}
    (known : ∀ e ∈ places, (r.calls[e.1]?).map Call.callee = some e.2)
    (once : ∀ k < r.calls.length, (places.map Prod.fst).count k ≤ 1) :
    (places.map Prod.fst).Nodup := by
  rw [List.nodup_iff_count_le_one]
  intro k
  by_cases there : k ∈ places.map Prod.fst
  · exact once k (place_of_known known there)
  · rw [List.count_eq_zero.mpr there]
    exact Nat.zero_le _

theorem perm_of_known {places : List (Nat × Callee)}
    (known : ∀ e ∈ places, (r.calls[e.1]?).map Call.callee = some e.2)
    (once : ∀ k < r.calls.length, (places.map Prod.fst).count k = 1) :
    (places.map Prod.fst).Perm (List.range r.calls.length) := by
  have distinct := nodup_of_known known fun k inside => Nat.le_of_eq (once k inside)
  rw [List.perm_ext_iff_of_nodup distinct List.nodup_range]
  intro k
  rw [List.mem_range]
  constructor
  · exact place_of_known known
  · intro inside
    exact List.one_le_count_iff.mp (Nat.le_of_eq (once k inside).symm)

/-- No call starts or ends twice. -/
theorem distinct (h : m.Follows r log) :
    ((log.started r.cycle).map Prod.fst).Nodup ∧ ((log.ended r.cycle).map Prod.fst).Nodup :=
  ⟨nodup_of_known h.started fun k inside => (h.stands.once k inside).1,
    nodup_of_known h.ended fun k inside => (h.stands.once k inside).2⟩

/-- When a run is over each of its calls has started and ended. -/
theorem all (h : m.Follows r log) (gone : ∀ x ∈ m.form.runs, x.cycle ≠ r.cycle) :
    ((log.started r.cycle).map Prod.fst).Perm (List.range r.calls.length) ∧
      ((log.ended r.cycle).map Prod.fst).Perm (List.range r.calls.length) := by
  cases h.stands with
  | goes runs =>
    have here := gone _ (runs ▸ List.mem_cons_self)
    exact absurd rfl here
  | finished _ once =>
    exact ⟨perm_of_known h.started fun k inside => (once k inside).1,
      perm_of_known h.ended fun k inside => (once k inside).2⟩

/-- A call of a run that is there is started and ended as its state tells. -/
theorem call (h : m.Follows r log) (going : r.cycle ∈ m.form.runs.map Run.cycle) :
    ∃ calls, m.form.runs = [{ r with calls }] ∧
      calls.map Call.offer = r.calls.map Call.offer ∧
      ∀ k c, calls[k]? = some c →
        (k ∈ (log.started r.cycle).map Prod.fst ↔ c.state ≠ .waiting) ∧
        (k ∈ (log.ended r.cycle).map Prod.fst ↔ c.state = .ended) := by
  cases h.stands with
  | finished gone _ =>
    obtain ⟨x, inside, same⟩ := List.mem_map.mp going
    exact absurd same (gone x inside)
  | @goes calls runs same counts =>
    refine ⟨calls, runs, same, fun k c there => ?_⟩
    obtain ⟨starts, ends⟩ := counts k c there
    rw [← List.one_le_count_iff, ← List.one_le_count_iff, starts, ends]
    cases c.state <;> simp [CallState.starts, CallState.ends]

/-- A call that has not started can start. -/
theorem starts (h : m.Follows r log) (going : r.cycle ∈ m.form.runs.map Run.cycle) {k : Nat}
    (inside : k < r.calls.length) (new : k ∉ (log.started r.cycle).map Prod.fst) :
    ∃ b, m.perform? (.startCall 0 k) = some b := by
  obtain ⟨calls, runs, same, states⟩ := h.call going
  have bound : k < calls.length := Form.length_of_offers same ▸ inside
  have there := List.getElem?_eq_getElem bound
  have waiting : calls[k].state = .waiting := by
    by_contra begun
    exact new ((states k _ there).1.mpr begun)
  have found : m.scene.form.call? 0 k = some calls[k] := by
    rw [Form.call?, show m.scene.form.runs = _ from runs]
    exact there
  simp [Moment.perform?, Scene.startCall?, found, Option.filter, waiting]

/-- A call that has started can end when its time has come. -/
theorem ends (h : m.Follows r log) (going : r.cycle ∈ m.form.runs.map Run.cycle) {k : Nat}
    (begun : k ∈ (log.started r.cycle).map Prod.fst)
    (goesOn : k ∉ (log.ended r.cycle).map Prod.fst) :
    ∃ ms a, m.perform? (.pass ms) = some a ∧ ∃ b, a.perform? (.endCall 0 k) = some b := by
  obtain ⟨calls, runs, same, states⟩ := h.call going
  have bound : k < calls.length :=
    Form.length_of_offers same ▸ place_of_known h.started begun
  have there := List.getElem?_eq_getElem bound
  obtain ⟨due, running⟩ : ∃ due, calls[k].state = .running due := by
    cases state : calls[k].state with
    | running due => exact ⟨due, rfl⟩
    | waiting => exact absurd state ((states k _ there).1.mp begun)
    | ended => exact absurd ((states k _ there).2.mpr state) goesOn
  have found : m.scene.form.call? 0 k = some calls[k] := by
    rw [Form.call?, show m.scene.form.runs = _ from runs]
    exact there
  have later : due ≤ m.now + due := Nat.le_add_left _ _
  refine ⟨due, _, rfl, ?_⟩
  simp [Moment.perform?, Scene.endCallAt?, found, Option.filter, Call.isDue, Call.due?, running,
    later]

/-- A run whose calls have all ended can be finished, and what came of it is told then. -/
theorem finishes (h : m.Follows r log) (going : r.cycle ∈ m.form.runs.map Run.cycle)
    (all : ∀ k < r.calls.length, k ∈ (log.ended r.cycle).map Prod.fst) :
    ∃ b, m.perform? (.finishRun 0) = some b ∧
      (m.form.alive = true → .settled r.cycle r.failure? ∈ b.form.mailbox) := by
  obtain ⟨calls, runs, same, states⟩ := h.call going
  have finished : Run.isFinished { r with calls } = true := by
    simp only [Run.isFinished, Bool.not_eq_true', List.any_eq_false]
    intro c among
    obtain ⟨k, bound, rfl⟩ := List.getElem_of_mem among
    have ended := all k (Form.length_of_offers same ▸ bound)
    have state := (states k _ (List.getElem?_eq_getElem bound)).2.mp ended
    simp [Call.isOpen, state]
  have failure : Run.failure? { r with calls } = r.failure? := by
    apply Run.failure?_congr
    have responses := congrArg (List.map Prod.snd) same
    rwa [List.map_map, List.map_map] at responses
  have found : m.scene.form.runs[0]? = some { r with calls } := by
    rw [show m.scene.form.runs = _ from runs]
    rfl
  refine ⟨{ m with scene := m.scene.update fun f =>
    { f with runs := f.runs.eraseIdx 0 }.post (.settled r.cycle r.failure?) }, ?_, fun alive => ?_⟩
  · simp [Moment.perform?, Scene.finishRunAt?, found, Option.filter, finished, failure]
  · have alive : m.scene.form.alive = true := alive
    simp [Scene.update, Form.post, alive]

end Moment.Follows

end

end LiveForm
