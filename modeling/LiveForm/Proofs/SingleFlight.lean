import Mathlib.Data.List.Perm.Basic
import LiveForm.Proofs.Coordinator.Step

/-!
# One submission at a time

A submission is under way while its run goes on, and then until the form has heard of its end.

* `Coordinator.OneFlight`: what is under way is the submission in flight and no other;
* `one_flight`: so it is on every course, whatever the order of its deeds;
* `Course.calls_stay`: a call stays open until a deed ends it;
* `single_flight`: therefore no end comes too late to count, and no submission calls anyone before
  all calls of the others have ended.
-/

set_option autoImplicit false

namespace LiveForm

/-- The cycle of a submission whose end the form is yet to hear of. -/
def Message.cycle? : Message → Option Nat
  | .settled cycle _ => some cycle
  | _ => none

theorem Message.cycle?_eq_some {m : Message} {cycle : Nat} :
    m.cycle? = some cycle ↔ ∃ failure, m = .settled cycle failure := by
  cases m <;> simp [cycle?]

/-- The cycles of the submissions under way. -/
def Coordinator.flights (c : Coordinator) : List Nat :=
  c.runs.map Run.cycle ++ c.mailbox.filterMap Message.cycle?

def Form.flights (f : Form) : List Nat :=
  f.runs.map Run.cycle ++ f.mailbox.filterMap Message.cycle?

/-- The submission in flight is under way and no other. After the end of the form a run may go on. -/
structure Coordinator.OneFlight (c : Coordinator) : Prop where
  living : c.alive = true → c.flights = (c.pending.map Pending.cycle).toList
  fallen : c.alive = false → c.Ended ∧ c.runs.length ≤ 1

namespace Coordinator

variable {now : Nat} {c c' : Coordinator} {m : Message} {act : Act}

@[simp] theorem post_flights (h : m.cycle? = none) : (c.post m).flights = c.flights := by
  unfold post
  split <;> simp [flights, h]

@[simp] theorem request_flights : (c.request now).flights = c.flights := by
  unfold request
  dsimp only
  split
  · exact post_flights rfl
  · rfl

/-- When nothing is under way a submission may begin. -/
theorem Attempts.flights {trigger : Trigger} {waiters : List Ticket}
    (h : c.Attempts trigger waiters c') (free : c.pending = none) (none : c.flights = []) :
    c'.flights = (c'.pending.map Pending.cycle).toList := by
  cases h with
  | begins cycle _ _ flown =>
    obtain ⟨runs, mailbox⟩ := List.append_eq_nil_iff.mp none
    simp [Coordinator.begin, Coordinator.flights, List.map_eq_nil_iff.mp runs, mailbox, cycle, flown]
  | halts =>
    show c.flights = (c.pending.map Pending.cycle).toList
    rw [none, free]
    rfl

/-- Handling a message keeps what is under way. The end of a submission makes room for the next. -/
theorem Handles.flights (h : c.Handles now m c')
    (one : m.cycle?.toList ++ c.flights = (c.pending.map Pending.cycle).toList) :
    c'.flights = (c'.pending.map Pending.cycle).toList := by
  cases h with
  | aside quiet =>
    cases m with
    | settled => cases quiet
    | _ => exact one
  | changed | written =>
    show (c.request now).flights = ((c.request now).pending.map Pending.cycle).toList
    rw [request_flights, request_pending]
    exact one
  | told | reset | submitLater | stale | elapsedLater => exact one
  | submitNow free next | elapsedNow _ free next =>
    refine next.flights free ?_
    have : c.flights = (c.pending.map Pending.cycle).toList := one
    rwa [free] at this
  | unknown other =>
    cases flight : c.pending with
    | none => simp [flight, Message.cycle?] at one
    | some p =>
      simp only [flight, Message.cycle?] at one
      exact absurd (List.cons_eq_cons.mp one).1.symm (other p flight)
  | settledLast flight =>
    simp only [flight, Message.cycle?] at one
    exact (List.cons_eq_cons.mp one).2
  | settledNext flight _ next =>
    simp only [flight, Message.cycle?] at one
    exact next.flights rfl (List.cons_eq_cons.mp one).2

theorem singleton_of_perm {α : Type} {l : List α} {o : Option α} (h : l.Perm o.toList) :
    l = o.toList := by
  cases o with
  | none => exact List.perm_nil.mp h
  | some n => exact List.perm_singleton.mp h

/-- A run that reports its end leaves the runs for the mailbox. -/
theorem finish_flights {place : Nat} {r : Run} {failure : Option SubmitError}
    (h : c.runs[place]? = some r) (alive : c.alive = true) :
    ({ c with runs := c.runs.eraseIdx place }.post (.settled r.cycle failure)).flights.Perm
      c.flights := by
  obtain ⟨inside, rfl⟩ := List.getElem?_eq_some_iff.mp h
  have taken := ((List.getElem_cons_eraseIdx_perm inside).map Run.cycle).append_right
    (c.mailbox.filterMap Message.cycle?)
  refine List.Perm.trans ?_ taken
  simp only [post, alive, flights, ite_true, List.filterMap_append, Message.cycle?,
    List.filterMap_cons, List.filterMap_nil, List.map_cons, List.cons_append]
  rw [← List.append_assoc]
  exact List.perm_append_singleton _ _

/-- The message at the head of the mailbox may be the end of the submission in flight. -/
theorem head_flights {rest : List Message} (h : c.mailbox = m :: rest) :
    c.flights.Perm (m.cycle?.toList ++ { c with mailbox := rest }.flights) := by
  simp only [flights, h]
  cases m with
  | settled cycle failure => exact List.perm_middle
  | _ => exact .refl _

theorem OneFlight.step (h : c.Step now act c') (one : c.OneFlight) : c'.OneFlight := by
  have same := h.alive
  constructor
  · intro alive
    rw [same] at alive
    have before := one.living alive
    cases h with
    | still => exact before
    | call kept =>
      rw [← before, flights, flights, kept]
    | post aside =>
      rename_i m
      rw [post_flights (by cases m <;> first | rfl | cases aside), before, post_pending]
    | ask | straggle =>
      rw [post_flights rfl, before, post_pending]
    | fire =>
      rw [post_flights rfl, post_pending]
      exact before
    | finish found =>
      rw [post_pending]
      exact singleton_of_perm (before ▸ finish_flights found alive)
    | handle mailbox handled =>
      exact handled.flights (singleton_of_perm (before ▸ (head_flights mailbox).symm))
  · intro dead
    rw [same] at dead
    obtain ⟨gone, few⟩ := one.fallen dead
    refine ⟨gone.step h, ?_⟩
    cases h with
    | still => exact few
    | call kept =>
      have := congrArg List.length kept
      simp only [List.length_map] at this
      exact this ▸ few
    | ask | post | straggle | fire =>
      rw [post_ended]
      · exact few
      · exact dead
    | finish =>
      rw [post_ended]
      · exact Nat.le_trans (List.length_eraseIdx_le _ _) few
      · exact dead
    | handle mailbox => rw [gone.unheard] at mailbox; cases mailbox

/-- There is never more than one run. -/
theorem OneFlight.few (one : c.OneFlight) : c.runs.length ≤ 1 := by
  cases alive : c.alive with
  | false => exact (one.fallen alive).2
  | true =>
    have all := congrArg List.length (one.living alive)
    have bound : (c.pending.map Pending.cycle).toList.length ≤ 1 := by cases c.pending <;> simp
    simp only [flights, List.length_append, List.length_map] at all
    omega

/-- When a form ends nothing is left to hear of, and no more runs are there than before. -/
theorem OneFlight.ended (one : c.OneFlight) (gone : c'.Ended) (before : c'.Precedes c) :
    c'.OneFlight where
  living alive := absurd alive (by simp [gone.dead])
  fallen _ := ⟨gone, Nat.le_trans before.runs.length_le one.few⟩

/-- Nothing is put off unless a submission is in flight, and that is the one that began last. -/
structure Orderly (c : Coordinator) : Prop where
  behind : c.deferred.isSome = true → c.pending.isSome = true
  last : ∀ p, c.pending = some p → p.cycle = c.cycles

/-- Nothing is put off while nothing is in flight. -/
theorem Orderly.clear (orderly : c.Orderly) (free : c.pending = none) : c.deferred = none := by
  cases waiting : c.deferred with
  | none => rfl
  | some d =>
    have busy := orderly.behind (Option.isSome_of_eq_some waiting)
    simp [free] at busy

theorem Attempts.orderly {trigger : Trigger} {waiters : List Ticket}
    (h : c.Attempts trigger waiters c') (orderly : c.Orderly) : c'.Orderly := by
  cases h with
  | begins cycle =>
    refine ⟨fun _ => rfl, ?_⟩
    intro p eq
    cases eq
    exact cycle
  | halts => exact ⟨orderly.behind, orderly.last⟩

theorem Orderly.step (h : c.Step now act c') (orderly : c.Orderly) : c'.Orderly := by
  have kept (same : c'.deferred = c.deferred ∧ c'.pending = c.pending ∧ c'.cycles = c.cycles) :
      c'.Orderly := by
    obtain ⟨deferred, pending, cycles⟩ := same
    exact ⟨by rw [deferred, pending]; exact orderly.behind,
      by rw [pending, cycles]; exact orderly.last⟩
  cases h with
  | still => exact orderly
  | call => exact ⟨orderly.behind, orderly.last⟩
  | ask | post | straggle | fire | finish => exact kept (by simp)
  | handle _ handled =>
    cases handled with
    | aside | told | reset | stale | unknown => exact ⟨orderly.behind, orderly.last⟩
    | changed | written => exact kept (by simp [answer])
    | submitLater busy | elapsedLater _ busy => exact ⟨fun _ => busy, orderly.last⟩
    | submitNow _ next | elapsedNow _ _ next =>
      exact next.orderly ⟨orderly.behind, orderly.last⟩
    | settledLast _ last =>
      exact ⟨fun waiting => absurd waiting (by simp [settle, answer, last]), by rintro _ ⟨⟩⟩
    | settledNext _ _ next => exact next.orderly ⟨by rintro ⟨⟩, by rintro _ ⟨⟩⟩

end Coordinator

theorem one_flight {c : FormConfig} {now : Nat} {guard : UnloadGuard} {m : Moment} {log : Log}
    (course : Course (.opening c now guard) log m) : m.form.coordinator.OneFlight :=
  course.keeps_coordinator (fun h one => one.step h)
    (fun gone before one => one.ended gone before) ⟨fun _ => rfl, by rintro ⟨⟩⟩

/-- While a form lives, what is under way is the submission in flight, or nothing. -/
theorem one_flight_alive {c : FormConfig} {now : Nat} {guard : UnloadGuard} {m : Moment} {log : Log}
    (course : Course (.opening c now guard) log m) (alive : m.form.alive = true) :
    m.form.flights = (m.form.pending.map Pending.cycle).toList := by
  have cycles : m.form.coordinator.pending.map Pending.cycle = m.form.pending.map Pending.cycle := by
    simp only [Form.coordinator, Option.map_map]
    rfl
  exact cycles ▸ (one_flight course).living alive

/-- When no message and no run is left, no submission is in flight. -/
theorem nothing_pending {c : FormConfig} {now : Nat} {guard : UnloadGuard} {m : Moment} {log : Log}
    (course : Course (.opening c now guard) log m) (alive : m.form.alive = true)
    (mailbox : m.form.mailbox = []) (runs : m.form.runs = []) : m.form.pending = none := by
  have flights := one_flight_alive course alive
  cases flight : m.form.pending with
  | none => rfl
  | some p => simp [Form.flights, mailbox, runs, flight] at flights

theorem orderly {c : FormConfig} {now : Nat} {guard : UnloadGuard} {m : Moment} {log : Log}
    (course : Course (.opening c now guard) log m) (alive : m.form.alive = true) :
    m.form.coordinator.Orderly :=
  course.keeps_alive (P := Coordinator.Orderly) (fun _ step orderly => orderly.step step)
    ⟨by rintro ⟨⟩, by rintro _ ⟨⟩⟩ alive

/-! ## Calls end before others start -/

/-- A deed ends a call of the submission of a cycle. -/
def EndsCall (cycle call : Nat) (x : Moment × Deed) : Prop :=
  ∃ run r, x.2 = .endCall run call ∧ x.1.form.runs[run]? = some r ∧ r.cycle = cycle

/-- A call of the submission of a cycle has not ended. -/
def Form.HasOpen (f : Form) (cycle call : Nat) : Prop :=
  ∃ r ∈ f.runs, r.cycle = cycle ∧ ∃ c, r.calls[call]? = some c ∧ c.isOpen = true

theorem Coordinator.Attempts.runs {c c' : Coordinator} {trigger : Trigger} {waiters : List Ticket}
    (h : c.Attempts trigger waiters c') : c.runs <+: c'.runs := by
  cases h with
  | begins => exact List.prefix_append _ _
  | halts => exact List.prefix_rfl

theorem Coordinator.Handles.runs {now : Nat} {c c' : Coordinator} {m : Message}
    (h : c.Handles now m c') : c.runs <+: c'.runs := by
  cases h with
  | submitNow _ next | elapsedNow _ _ next | settledNext _ _ next => exact next.runs
  | changed | written => exact (Precedes.request c now).runs
  | _ => exact List.prefix_rfl

namespace Form

variable {f : Form} {cycle call : Nat}

theorem HasOpen.mono {g : Form} (h : f.HasOpen cycle call) (kept : f.runs <+: g.runs) :
    g.HasOpen cycle call :=
  let ⟨r, among, rest⟩ := h
  ⟨r, kept.subset among, rest⟩

theorem HasOpen.post {m : Message} (h : f.HasOpen cycle call) : (f.post m).HasOpen cycle call := by
  unfold Form.post
  split <;> exact h

/-- Only a call that is put in its place can end a call. -/
theorem HasOpen.putCall (h : f.HasOpen cycle call) (run k : Nat) (c : Call) :
    (f.putCall run k c).HasOpen cycle call ∨
      k = call ∧ c.isOpen = false ∧ ∃ r, f.runs[run]? = some r ∧ r.cycle = cycle := by
  obtain ⟨r, among, rfl, c₀, found, stillOpen⟩ := h
  obtain ⟨i, place⟩ := List.mem_iff_getElem?.mp among
  have moved : (f.putCall run k c).runs[i]? =
      some (if run = i then { r with calls := r.calls.set k c } else r) := by
    simp [Form.putCall, List.getElem?_modify, place]
  by_cases here : run = i
  · subst here
    by_cases same : k = call
    · subst same
      cases closed : c.isOpen with
      | false => exact .inr ⟨rfl, rfl, r, place, rfl⟩
      | true =>
        refine .inl ⟨_, List.mem_of_getElem? moved, by simp, c, ?_, closed⟩
        simp [(List.getElem?_eq_some_iff.mp found).1]
    · refine .inl ⟨_, List.mem_of_getElem? moved, by simp, c₀, ?_, stillOpen⟩
      simpa [List.getElem?_set_ne same] using found
  · refine .inl ⟨_, List.mem_of_getElem? moved, by simp [here], c₀, ?_, stillOpen⟩
    simpa [here] using found

end Form

section

variable {a b m : Moment} {d : Deed} {log : Log} {cycle call : Nat}

/-- An open call stays so until a deed ends it, or its run is given up with the form. -/
theorem Moment.perform?_open (h : a.perform? d = some b) (one : a.form.coordinator.OneFlight)
    (stays : a.form.HasOpen cycle call) :
    EndsCall cycle call (a, d) ∨ b.form.HasOpen cycle call ∨
      b.form.alive = false ∧ b.form.runs = [] := by
  cases d with
  | startCall run k =>
    simp only [perform?, Scene.startCall?, Option.map_eq_some_iff, Option.filter_eq_some_iff] at h
    obtain ⟨_, ⟨c, ⟨_, waiting⟩, rfl⟩, rfl⟩ := h
    have waiting : c.state = .waiting := by simpa using waiting
    rcases stays.putCall run k (c.start a.now) with kept | ⟨_, closed, _⟩
    · exact .inr (.inl kept)
    · simp [Call.start, waiting, Call.isOpen] at closed
  | endCall run k =>
    simp only [perform?, Scene.endCallAt?, Option.map_eq_some_iff] at h
    obtain ⟨_, ⟨c, _, rfl⟩, rfl⟩ := h
    rcases stays.putCall run k { c with state := .ended } with
      kept | ⟨rfl, _, r, found, same⟩
    · exact .inr (.inl kept)
    · exact .inl ⟨run, r, rfl, found, same⟩
  | finishRun run =>
    simp only [perform?, Scene.finishRunAt?, Option.map_eq_some_iff, Option.filter_eq_some_iff] at h
    obtain ⟨_, ⟨r, ⟨found, finished⟩, rfl⟩, rfl⟩ := h
    obtain ⟨r₀, among, same, c, place, stillOpen⟩ := stays
    obtain ⟨i, here⟩ := List.mem_iff_getElem?.mp among
    have other : i ≠ run := by
      rintro rfl
      obtain rfl : r = r₀ := by simpa [found] using here
      have : c.isOpen = false := by
        simpa using List.any_eq_false.mp (by simpa [Run.isFinished] using finished) c
          (List.mem_of_getElem? place)
      simp [this] at stillOpen
    have kept := List.mem_eraseIdx_iff_getElem?.mpr ⟨i, other, here⟩
    exact .inr (.inl (.post (f := { a.form with runs := a.form.runs.eraseIdx run })
      ⟨r₀, kept, same, c, place, stillOpen⟩))
  | handle =>
    obtain ⟨m, rest, mailbox, rfl⟩ := handle_eq_some h
    have ends := Scene.handle_ends (a.scene.update fun f => { f with mailbox := rest }) a.now m
    cases turn : (a.scene.update fun f => { f with mailbox := rest }).handle a.now m with
    | goesOn s => exact .inr (.inl (stays.mono (ends.goes s turn).runs))
    | falls s =>
      obtain ⟨last, handled, before⟩ := ends.falls s turn
      have before : s.close.form.runs <+: last.runs := (s.close_precedes.trans before).runs
      -- The runs there were are all there can be, and what is left is a part of them.
      have few := (one.step (.handle mailbox handled)).few
      cases left : s.close.form.runs with
      | nil => exact .inr (.inr ⟨rfl, left⟩)
      | cons r rest =>
        have all : s.close.form.runs = last.runs :=
          before.eq_of_length_le (by rw [left, List.length_cons]; omega)
        exact .inr (.inl (stays.mono (all ▸ handled.runs)))
  | close =>
    simp only [perform?, Option.ite_none_right_eq_some, Option.some.injEq] at h
    obtain ⟨_, rfl⟩ := h
    have same := congrArg Coordinator.runs a.scene.releaseToken_coordinator
    exact .inr (.inl (stays.mono (g := a.scene.close.form)
      ⟨[], (List.append_nil _).trans same.symm⟩))
  | ask =>
    simp only [perform?, Option.ite_none_right_eq_some, Option.some.injEq] at h
    obtain ⟨_, rfl⟩ := h
    exact .inr (.inl (.post stays))
  | change =>
    cases h
    exact .inr (.inl (.post stays))
  | straggle notice =>
    simp only [perform?, Option.ite_none_right_eq_some, Option.some.injEq] at h
    obtain ⟨_, rfl⟩ := h
    exact .inr (.inl (.post stays))
  | pass | stop | share =>
    cases h
    exact .inr (.inl stays)
  | fireDebounce =>
    simp only [perform?, Scene.fireDebounce?, Option.map_eq_some_iff] at h
    obtain ⟨_, ⟨t, _, rfl⟩, rfl⟩ := h
    exact .inr (.inl (.post stays))
  | fireHide =>
    simp only [perform?, Scene.fireHide?, Option.map_eq_some_iff] at h
    obtain ⟨_, ⟨t, _, rfl⟩, rfl⟩ := h
    exact .inr (.inl (.post stays))
  | finishLoad =>
    simp only [perform?, Scene.finishLoad?, Option.map_eq_some_iff] at h
    obtain ⟨_, ⟨l, _, rfl⟩, rfl⟩ := h
    cases l.outcome with
    | panics => exact .inr (.inl stays)
    | values | fails => exact .inr (.inl (.post stays))

/-- A form that has ended has no new runs. -/
theorem Moment.perform?_ended (h : a.perform? d = some b) (one : a.form.coordinator.OneFlight)
    (dead : a.form.alive = false) (none : a.form.runs = []) :
    b.form.alive = false ∧ b.form.runs = [] := by
  have none : a.form.coordinator.runs = [] := none
  have stays {c : Coordinator} {act : Act}
      (step : a.form.coordinator.Step a.now act c) :
      c.alive = false ∧ c.runs = [] := by
    refine ⟨step.alive.trans dead, ?_⟩
    cases step with
    | still => exact none
    | call same => simpa [none] using same
    | ask | post | straggle | fire => rw [Coordinator.post_ended] <;> assumption
    | finish found => simp [none] at found
    | handle mailbox => simp [(one.fallen dead).1.unheard] at mailbox
  cases perform?_leaves h with
  | whole step => exact stays step
  | rest step gone before => exact ⟨gone.dead, List.prefix_nil.mp ((stays step).2 ▸ before.runs)⟩

/-- What was open at some moment has been ended since, is still open, or was given up. -/
theorem Course.calls_stay {start : Moment} (course : Course start log m)
    (one : ∀ {log m}, Course start log m → m.form.coordinator.OneFlight)
    (first : start.form.HasOpen cycle call) :
    (∃ x ∈ log, EndsCall cycle call x) ∨ m.form.HasOpen cycle call ∨
      m.form.alive = false ∧ m.form.runs = [] := by
  induction course with
  | here => exact .inr (.inl first)
  | next before done ih =>
    rcases ih with ⟨x, among, ended⟩ | stays | ⟨dead, none⟩
    · exact .inl ⟨x, List.mem_cons_of_mem _ among, ended⟩
    · rcases Moment.perform?_open done (one before) stays with ended | rest
      · exact .inl ⟨_, List.mem_cons_self, ended⟩
      · exact .inr rest
    · exact .inr (.inr (Moment.perform?_ended done (one before) dead none))

end

/-! ## The main result -/

/-- While a form lives, what is under way is the submission in flight, or nothing. So an end is
always that of the submission in flight; and when a call starts, all calls of other submissions that
were there before have ended. -/
theorem single_flight {c : FormConfig} {now : Nat} {guard : UnloadGuard} {m : Moment} {log : Log}
    (course : Course (.opening c now guard) log m) :
    (m.form.alive = true → m.form.flights = (m.form.pending.map Pending.cycle).toList) ∧
    (∀ cycle failure rest, m.form.mailbox = .settled cycle failure :: rest →
      ∃ p, m.form.pending = some p ∧ p.cycle = cycle) ∧
    (∀ run call b r, m.perform? (.startCall run call) = some b → m.form.runs[run]? = some r →
      ∀ later earlier a d, log = later ++ (a, d) :: earlier →
      ∀ r₀ ∈ a.form.runs, r₀.cycle ≠ r.cycle →
      ∀ k c₀, r₀.calls[k]? = some c₀ → c₀.isOpen = true →
        ∃ x ∈ later ++ [(a, d)], EndsCall r₀.cycle k x) := by
  have one := one_flight course
  refine ⟨one_flight_alive course, ?_, ?_⟩
  · intro cycle failure rest mailbox
    have alive : m.form.alive = true := by
      by_contra dead
      have empty : m.form.mailbox = [] := (one.fallen (Bool.eq_false_iff.mpr dead)).1.unheard
      simp [mailbox] at empty
    have known : cycle ∈ m.form.flights := by simp [Form.flights, mailbox, Message.cycle?]
    rw [one_flight_alive course alive] at known
    simpa using known
  · rintro run call b r _ found later earlier a d rfl r₀ among other k c₀ place stillOpen
    obtain ⟨b, before, done, after⟩ := course.split
    have since : Course a (later ++ [(a, d)]) m := (Course.next .here done).append after
    rcases since.calls_stay (fun course => one_flight (before.append course))
      ⟨r₀, among, rfl, c₀, place, stillOpen⟩ with ended | ⟨r', among', same, _⟩ | ⟨_, none⟩
    · exact ended
    · -- There is but one run, and it is not that of the other submission.
      have few : m.form.runs.length ≤ 1 := one.few
      have here := List.mem_of_getElem? found
      cases runs : m.form.runs with
      | nil => simp [runs] at here
      | cons x rest =>
        obtain rfl : rest = [] := by
          rw [runs, List.length_cons] at few
          exact List.length_eq_zero_iff.mp (by omega)
        rw [runs, List.mem_singleton] at here among'
        exact absurd (here ▸ among' ▸ same.symm) other
    · simp [none] at found

/-- Two submissions, the second asked for while the first was in flight. -/
theorem single_flight_twice :
    ∃ log m b, Course (.opening (.sample ⟨false, none⟩ .emptyObject) 0 .new) log m ∧
      m.form.flights = [2] ∧ m.perform? (.startCall 0 0) = some b ∧
      ∃ x ∈ log, EndsCall 1 0 x := by
  obtain ⟨log, m, course, -, passed⟩ := Moment.course_of_test
    (.opening (.sample ⟨false, none⟩ .emptyObject) 0 .new)
    [.ask 0 .submit, .handle, .startCall 0 0, .ask 1 .submit, .handle, .pass 5,
      .endCall 0 0, .finishRun 0, .handle]
    (fun log m =>
      m.form.alive && m.form.pending.map Pending.cycle == some 2 &&
      (m.perform? (.startCall 0 0)).isSome && m.form.runs[0]?.any (fun r => r.cycle == 2) &&
      log[6]?.any fun x => x.1.form.runs.any fun r => r.cycle == 1 && r.calls[0]?.any Call.isOpen)
    (by decide +kernel)
  simp only [Bool.and_eq_true, Option.any_eq_true, List.any_eq_true, beq_iff_eq] at passed
  obtain ⟨⟨⟨⟨alive, second⟩, starts⟩, r, found, two⟩, x, place, r₀, among, one, call, atCall,
    isOpen⟩ := passed
  obtain ⟨b, starts⟩ := Option.isSome_iff_exists.mp starts
  obtain ⟨flights, _, ended⟩ := single_flight course
  refine ⟨log, m, b, course, by simpa [second] using flights alive, starts, ?_⟩
  obtain ⟨y, among', ends⟩ := ended 0 0 b r starts found _ _ _ _ (Log.around place) r₀ among
    (by omega) 0 call atCall isOpen
  refine ⟨y, ?_, one ▸ ends⟩
  rw [Log.around place]
  simp only [List.mem_append, List.mem_cons, List.not_mem_nil, or_false] at among' ⊢
  exact among'.imp_right .inl

end LiveForm
