import LiveForm.Proofs.SingleFlight

/-!
# The loops run courses

The loop of a form does what is to be done in one fixed order, and it starts the calls of a run at
once. Everything it does is done by deeds, one after another.

* `Form.Together`: the calls of each run start together. The loop keeps it so;
* `Scene.settleWithin_keeps`: what each step keeps the loop keeps;
* `Moment.tick?_course`: what the loop does next is a course;
* `Moment.settle_course`: so is all that it does at one instant.
-/

set_option autoImplicit false

namespace LiveForm

/-- No call of a run has started, or all have. -/
def Run.Together (r : Run) : Prop := r.isFresh = true → ∀ c ∈ r.calls, c.state = .waiting

def Form.Together (f : Form) : Prop := ∀ r ∈ f.runs, r.Together

theorem Run.isFresh_iff {r : Run} : r.isFresh = true ↔ ∃ c ∈ r.calls, c.state = .waiting := by
  simp [isFresh]

/-! ## Which run and which call -/

theorem Form.startFirst?_eq_some {now : Nat} {runs runs' : List Run} {r : Run}
    (h : startFirst? now runs = some (r, runs')) :
    ∃ i, runs[i]? = some r ∧ r.isFresh = true ∧ runs' = runs.set i (r.start now) := by
  induction runs generalizing runs' with
  | nil => cases h
  | cons x rest ih =>
    simp only [startFirst?] at h
    split at h
    · rename_i fresh
      cases h
      exact ⟨0, rfl, fresh, rfl⟩
    · obtain ⟨⟨r', rest'⟩, later, same⟩ := Option.map_eq_some_iff.mp h
      obtain ⟨rfl, rfl⟩ := Prod.mk.inj same
      obtain ⟨i, found, fresh, others⟩ := ih later
      exact ⟨i + 1, found, fresh, congrArg (x :: ·) others⟩

theorem Run.endFirst?_eq_some {now : Nat} {calls calls' : List Call} {callee : Callee}
    (h : endFirst? now calls = some (callee, calls')) :
    ∃ k c, calls[k]? = some c ∧ c.isDue now = true ∧ callee = c.callee ∧
      calls' = calls.set k { c with state := .ended } := by
  induction calls generalizing calls' with
  | nil => cases h
  | cons x rest ih =>
    simp only [endFirst?] at h
    split at h
    · rename_i due
      cases h
      exact ⟨0, x, rfl, due, rfl, rfl⟩
    · obtain ⟨⟨callee', rest'⟩, later, same⟩ := Option.map_eq_some_iff.mp h
      obtain ⟨rfl, rfl⟩ := Prod.mk.inj same
      obtain ⟨k, c, found, due, rfl, rfl⟩ := ih later
      exact ⟨k + 1, c, found, due, rfl, rfl⟩

theorem Form.endFirst?_eq_some {now : Nat} {runs runs' : List Run} {callee : Callee}
    (h : endFirst? now runs = some (callee, runs')) :
    ∃ i r k c, runs[i]? = some r ∧ r.calls[k]? = some c ∧ c.isDue now = true ∧ callee = c.callee ∧
      runs' = runs.set i { r with calls := r.calls.set k { c with state := .ended } } := by
  induction runs generalizing runs' with
  | nil => cases h
  | cons x rest ih =>
    simp only [endFirst?] at h
    split at h
    · rename_i callee' x' first
      cases h
      obtain ⟨⟨callee'', calls⟩, ends, same⟩ := Option.map_eq_some_iff.mp first
      cases same
      obtain ⟨k, c, found, due, rfl, rfl⟩ := Run.endFirst?_eq_some ends
      exact ⟨0, x, k, c, rfl, found, due, rfl, rfl⟩
    · obtain ⟨⟨callee', rest'⟩, later, same⟩ := Option.map_eq_some_iff.mp h
      obtain ⟨rfl, rfl⟩ := Prod.mk.inj same
      obtain ⟨i, r, k, c, found, call, due, rfl, rfl⟩ := ih later
      exact ⟨i + 1, r, k, c, found, call, due, rfl, rfl⟩

theorem Form.finishFirst?_eq_some {runs runs' : List Run} {r : Run}
    (h : finishFirst? runs = some (r, runs')) :
    ∃ i, runs[i]? = some r ∧ r.isFinished = true ∧ runs' = runs.eraseIdx i := by
  induction runs generalizing runs' with
  | nil => cases h
  | cons x rest ih =>
    simp only [finishFirst?] at h
    split at h
    · rename_i finished
      cases h
      exact ⟨0, rfl, finished, rfl⟩
    · obtain ⟨⟨r', rest'⟩, later, same⟩ := Option.map_eq_some_iff.mp h
      obtain ⟨rfl, rfl⟩ := Prod.mk.inj same
      obtain ⟨i, found, finished, rfl⟩ := ih later
      exact ⟨i + 1, found, finished, rfl⟩

/-- To change a run is to put the changed one in its place. -/
theorem modify_eq_set {runs : List Run} {i : Nat} {r : Run} (found : runs[i]? = some r)
    (change : Run → Run) : runs.modify i change = runs.set i (change r) := by
  obtain ⟨inside, rfl⟩ := List.getElem?_eq_some_iff.mp found
  apply List.ext_getElem?
  intro j
  rw [List.getElem?_modify, List.getElem?_set]
  by_cases same : i = j
  · subst same
    simp [inside]
  · simp [same]

namespace Scene

variable {s s' : Scene} {now : Nat}

/-- A run in place of another. -/
def putRun (s : Scene) (i : Nat) (r : Run) : Scene :=
  s.update fun f => { f with runs := f.runs.set i r }

/-- All are told of calls that start. -/
def tellStarts (s : Scene) (calls : List Call) : Scene :=
  calls.foldl (fun s c => s.log (.callStarted c.callee s.guard.isBlocking)) s

theorem putRun_self {i : Nat} {r : Run} (found : s.form.runs[i]? = some r) : s.putRun i r = s := by
  obtain ⟨inside, rfl⟩ := List.getElem?_eq_some_iff.mp found
  rw [putRun, update, List.set_getElem_self]

theorem putRun_putRun (i : Nat) (r r' : Run) : (s.putRun i r).putRun i r' = s.putRun i r' := by
  simp [putRun, update, List.set_set]

theorem startRun?_eq_some (h : s.startRun? now = some s') :
    ∃ i r, s.form.runs[i]? = some r ∧ r.isFresh = true ∧
      s' = (s.putRun i (r.start now)).tellStarts r.calls := by
  obtain ⟨⟨r, runs⟩, starts, rfl⟩ := Option.map_eq_some_iff.mp h
  obtain ⟨i, found, fresh, rfl⟩ := Form.startFirst?_eq_some starts
  exact ⟨i, r, found, fresh, rfl⟩

theorem endCall?_eq_some (h : s.endCall? now = some s') :
    ∃ i r k c, s.form.runs[i]? = some r ∧ r.calls[k]? = some c ∧ c.isDue now = true ∧
      s' = (s.putRun i { r with calls := r.calls.set k { c with state := .ended } }).log
        (.callEnded c.callee) ∧ s.endCallAt? now i k = some s' := by
  obtain ⟨⟨callee, runs⟩, ends, rfl⟩ := Option.map_eq_some_iff.mp h
  obtain ⟨i, r, k, c, found, call, due, rfl, rfl⟩ := Form.endFirst?_eq_some ends
  refine ⟨i, r, k, c, found, call, due, rfl, ?_⟩
  simp [endCallAt?, Form.call?, found, call, due, update, Form.putCall, modify_eq_set found]

theorem finishRun?_eq_some (h : s.finishRun? = some s') :
    ∃ (i : Nat) (r : Run), s' = (s.update fun f => { f with runs := f.runs.eraseIdx i }.post
      (.settled r.cycle r.failure?)) ∧ s.finishRunAt? i = some s' := by
  obtain ⟨⟨r, runs⟩, ends, rfl⟩ := Option.map_eq_some_iff.mp h
  obtain ⟨i, found, finished, rfl⟩ := Form.finishFirst?_eq_some ends
  refine ⟨i, r, rfl, ?_⟩
  rw [finishRunAt?, found, Option.filter_some, if_pos finished]
  rfl

end Scene

/-! ## A run that starts -/

theorem Moment.startCall_done {m : Moment} {i : Nat} {r : Run} {c : Call} {first rest : List Call}
    (found : m.form.runs[i]? = some r) (calls : r.calls = first ++ c :: rest)
    (waiting : c.state = .waiting) :
    m.perform? (.startCall i first.length) = some { m with
      scene := (m.scene.putRun i { r with calls := first ++ c.start m.now :: rest }).tellStarts [c] } := by
  have call : m.form.call? i first.length = some c := by
    simp [Form.call?, found, calls]
  have put : (m.form.putCall i first.length (c.start m.now)).runs =
      m.form.runs.set i { r with calls := first ++ c.start m.now :: rest } := by
    rw [Form.putCall, modify_eq_set found]
    simp [calls]
  rw [perform?, Scene.startCall?, call, Option.filter_some, if_pos (by simp [waiting])]
  simp [Scene.tellStarts, Scene.putRun, Scene.update, ← put]
  rfl

/-- The calls of a run that are left start one by one. -/
theorem Moment.start_course {m : Moment} {i : Nat} {r : Run} {first rest : List Call}
    (found : m.form.runs[i]? = some r) (calls : r.calls = first ++ rest)
    (waiting : ∀ c ∈ rest, c.state = .waiting) :
    ∃ log, Course m log { m with
      scene := (m.scene.putRun i { r with
        calls := first ++ rest.map fun c => c.start m.now }).tellStarts rest } := by
  induction rest generalizing m r first with
  | nil =>
    have same : m.scene.putRun i { r with calls := first ++ [] } = m.scene := by
      rw [← calls]
      exact Scene.putRun_self found
    rw [List.map_nil, same]
    exact ⟨[], .here⟩
  | cons c rest ih =>
    have starts := startCall_done found calls (waiting c List.mem_cons_self)
    have inside := (List.getElem?_eq_some_iff.mp found).1
    let s₁ := (m.scene.putRun i { r with calls := first ++ c.start m.now :: rest }).tellStarts [c]
    have calls₁ : ({ r with calls := first ++ c.start m.now :: rest } : Run).calls =
        (first ++ [c.start m.now]) ++ rest := by simp
    obtain ⟨log, course⟩ := ih (m := { m with scene := s₁ }) (List.getElem?_set_self inside) calls₁
      fun c' later => waiting c' (List.mem_cons_of_mem _ later)
    have whole : (s₁.putRun i { r with
          calls := (first ++ [c.start m.now]) ++ rest.map fun c => c.start m.now }).tellStarts rest =
        (m.scene.putRun i { r with
          calls := first ++ (c :: rest).map fun c => c.start m.now }).tellStarts (c :: rest) := by
      show ((((m.scene.putRun i _).putRun i _).tellStarts [c]).tellStarts rest) = _
      rw [Scene.putRun_putRun, List.append_assoc]
      rfl
    exact ⟨_, (Course.next .here starts).append (whole ▸ course)⟩

/-! ## Runs start together -/

/-- No call of a run waits once the run has started. -/
theorem Run.start_isFresh (r : Run) (now : Nat) : (r.start now).isFresh = false := by
  apply Bool.eq_false_iff.mpr
  intro fresh
  obtain ⟨c, inside, waiting⟩ := isFresh_iff.mp fresh
  obtain ⟨c₀, _, rfl⟩ := List.mem_map.mp inside
  unfold Call.start at waiting
  split at waiting
  · cases waiting
  · contradiction

theorem Run.start_together (r : Run) (now : Nat) : (r.start now).Together := by
  intro fresh
  rw [r.start_isFresh] at fresh
  cases fresh

/-- A run in which a call has started has no call that waits. -/
theorem Run.Together.end {r : Run} {k : Nat} {c : Call} {now : Nat} (h : r.Together)
    (found : r.calls[k]? = some c) (due : c.isDue now = true) :
    ({ r with calls := r.calls.set k { c with state := .ended } } : Run).Together := by
  intro fresh
  obtain ⟨c₀, inside, waiting⟩ := isFresh_iff.mp fresh
  rcases List.mem_or_eq_of_mem_set inside with old | rfl
  · have all := h (isFresh_iff.mpr ⟨c₀, old, waiting⟩) c (List.mem_of_getElem? found)
    simp [Call.isDue, Call.due?, all] at due
  · cases waiting

namespace Coordinator

def Together (c : Coordinator) : Prop := ∀ r ∈ c.runs, r.Together

variable {c c' : Coordinator}

theorem Together.within (h : c'.Together) (before : c.Precedes c') : c.Together :=
  fun r inside => h r (before.runs.subset inside)

theorem Attempts.together {trigger : Trigger} {waiters : List Ticket}
    (h : c.Attempts trigger waiters c') (together : c.Together) : c'.Together := by
  cases h with
  | begins _ _ _ _ fresh =>
    intro r inside
    rcases List.mem_append.mp inside with old | new
    · exact together r old
    · rw [List.mem_singleton.mp new]
      exact fun _ => fresh
  | halts => exact together

theorem Handles.together {now : Nat} {m : Message} (h : c.Handles now m c')
    (together : c.Together) : c'.Together := by
  cases h with
  | submitNow _ next | elapsedNow _ _ next | settledNext _ _ next => exact next.together together
  | changed | written => exact fun r inside => together r (request_runs c now ▸ inside)
  | _ => exact together

end Coordinator

/-- If runs start together as a turn ends, they do so also when it falls on the way. -/
theorem Turn.Ends.land_together {t : Turn} {s : Scene} {Q : Coordinator → Prop} (h : t.Ends s Q)
    (all : ∀ c, Q c → c.Together) : t.land.form.Together := by
  cases t with
  | goesOn s' => exact all _ (h.goes s' rfl)
  | falls s' =>
    obtain ⟨c, holds, short⟩ := h.falls s' rfl
    exact (all c holds).within (s'.close_precedes.trans short)

theorem Form.Together.post {f : Form} {m : Message} (h : f.Together) : (f.post m).Together := by
  unfold Form.post
  split <;> exact h

theorem Form.Together.set {f : Form} {i : Nat} {r : Run} (h : f.Together) (together : r.Together) :
    ∀ x ∈ f.runs.set i r, x.Together := by
  intro x inside
  rcases List.mem_or_eq_of_mem_set inside with old | rfl
  · exact h x old
  · exact together

theorem Scene.tellStarts_runs (s : Scene) (calls : List Call) :
    (s.tellStarts calls).form.runs = s.form.runs := by
  unfold tellStarts
  induction calls generalizing s with
  | nil => rfl
  | cons c rest ih => exact ih _

/-! ## The loop -/

/-- What each step keeps the loop keeps. -/
theorem Scene.settleWithin_keeps {P : Scene → Prop} {now : Nat}
    (step : ∀ {s s' : Scene}, P s → s.tick? now = some s' → P s') (n : Nat) {s : Scene}
    (holds : P s) : P (s.settleWithin n now) := by
  induction n generalizing s with
  | zero => exact holds
  | succ n ih =>
    rw [settleWithin]
    cases next : s.tick? now with
    | none => exact holds
    | some s' => exact ih (step holds next)

theorem orElse_eq_some {α : Type} {a b : Option α} {x : α} (h : (a <|> b) = some x) :
    a = some x ∨ b = some x := by
  cases a with
  | none => exact .inr h
  | some y => exact .inl h

namespace Moment

variable {m : Moment} {s : Scene}

/-- A deed on its own is a course. -/
theorem deed_course {d : Deed} {next? : Option Scene}
    (does : m.perform? d = next?.map fun scene => { m with scene }) (next : next? = some s) :
    ∃ log, Course m log { m with scene := s } := by
  rw [next] at does
  exact ⟨_, Course.next .here does⟩

theorem handleNext?_together (together : m.form.Together)
    (h : m.scene.handleNext? m.now = some s) : s.form.Together := by
  have done : m.perform? .handle = some { m with scene := s } := by rw [perform?, h]; rfl
  obtain ⟨message, rest, _, same⟩ := handle_eq_some done
  obtain rfl : s = ((m.scene.update fun f => { f with mailbox := rest }).handle m.now message).land :=
    congrArg Moment.scene same
  have ends := Scene.handle_ends (m.scene.update fun f => { f with mailbox := rest }) m.now message
  exact ends.land_together fun c handled => handled.together together

/-- What the loop does next is a course, and the runs start together as before. -/
theorem tick?_course (together : m.form.Together) (h : m.scene.tick? m.now = some s) :
    (∃ log, Course m log { m with scene := s }) ∧ s.form.Together := by
  unfold Scene.tick? at h
  split at h
  · rename_i stop
    cases h
    have closes : m.perform? .close = some { m with scene := m.scene.close } := if_pos stop
    refine ⟨⟨_, .next .here closes⟩, ?_⟩
    have whole : m.form.coordinator.Together := together
    exact whole.within m.scene.close_precedes
  · rcases orElse_eq_some h with next | h
    · exact ⟨deed_course (d := .handle) rfl next, handleNext?_together together next⟩
    rcases orElse_eq_some h with next | h
    · obtain ⟨i, r, found, fresh, rfl⟩ := Scene.startRun?_eq_some next
      have waiting := together r (List.mem_of_getElem? found) fresh
      have all : r.calls = [] ++ r.calls := rfl
      refine ⟨start_course found all waiting, ?_⟩
      intro x inside
      rw [Scene.tellStarts_runs] at inside
      exact together.set (r.start_together m.now) x inside
    rcases orElse_eq_some h with next | h
    · obtain ⟨i, r, k, c, found, call, due, same, ends⟩ := Scene.endCall?_eq_some next
      refine ⟨deed_course (d := .endCall i k) rfl ends, ?_⟩
      subst same
      exact together.set ((together r (List.mem_of_getElem? found)).end call due)
    rcases orElse_eq_some h with next | h
    · obtain ⟨i, r, same, ends⟩ := Scene.finishRun?_eq_some next
      refine ⟨deed_course (d := .finishRun i) rfl ends, ?_⟩
      subst same
      exact Form.Together.post fun r inside => together r (List.mem_of_mem_eraseIdx inside)
    rcases orElse_eq_some h with next | h
    · refine ⟨deed_course (d := .fireDebounce) rfl next, ?_⟩
      obtain ⟨_, _, rfl⟩ := Option.map_eq_some_iff.mp next
      exact Form.Together.post together
    rcases orElse_eq_some h with next | next
    · refine ⟨deed_course (d := .fireHide) rfl next, ?_⟩
      obtain ⟨_, _, rfl⟩ := Option.map_eq_some_iff.mp next
      exact Form.Together.post together
    · refine ⟨deed_course (d := .finishLoad) rfl next, ?_⟩
      obtain ⟨l, _, rfl⟩ := Option.map_eq_some_iff.mp next
      cases l.outcome with
      | panics => exact together
      | values | fails => exact Form.Together.post together

theorem opening_together (c : FormConfig) (now : Nat) (guard : UnloadGuard) :
    (Moment.opening c now guard).form.Together := by
  refine (Scene.publishCurrent_ends ⟨Form.make c now, guard⟩).land_together ?_
  intro c' same r inside
  rw [same] at inside
  cases inside

/-- All that the loop does at one instant is a course. -/
theorem settle_course (together : m.form.Together) :
    (∃ log, Course m log { m with scene := m.scene.settle m.now }) ∧
      (m.scene.settle m.now).form.Together := by
  refine Scene.settleWithin_keeps (P := fun s =>
    (∃ log, Course m log { m with scene := s }) ∧ s.form.Together) ?_ _ ⟨⟨[], .here⟩, together⟩
  rintro s s' ⟨⟨first, course⟩, kept⟩ next
  obtain ⟨⟨others, course'⟩, kept'⟩ := tick?_course (m := { m with scene := s }) kept next
  exact ⟨⟨_, course.append course'⟩, kept'⟩

end Moment

end LiveForm
