import LiveForm.Form.Work

/-!
# Courses of a form

The loops of `Form/Work` take what is to be done in one fixed order. Here it is done in any order:
hosts ask and change at any time, calls start and end one by one, timers, loads and finished runs
are late by any time, other forms use the shared guard in between, and a timer that was called off
may still get its notice through.

* `Moment.perform?` does one deed, if it can be done;
* `Course start log m`: deeds lead from `start` to `m`. The log has each deed with the moment it was
  done in, the last one first;
* `Course.keeps`: what every deed keeps holds of every moment that is reached.
-/

set_option autoImplicit false

namespace LiveForm

/-- A form at some time, beside the guard it shares. No ticket from `nextTicket` on has been given
out. -/
structure Moment where
  now : Nat
  nextTicket : Ticket
  scene : Scene

abbrev Moment.form (m : Moment) : Form := m.scene.form

/-- What can happen next. Runs and their calls are named by their places. -/
inductive Deed where
  | pass (ms : Nat)
  | ask (ticket : Ticket) (request : Request)
  | change (path : FieldPath) (value : Json)
  | stop
  | share (guard : UnloadGuard)
  | close
  | handle
  | startCall (run call : Nat)
  | endCall (run call : Nat)
  | finishRun (run : Nat)
  | fireDebounce
  | fireHide
  | finishLoad
  | straggle (notice : Message)

/-- Something is asked, a message is handled, or neither. -/
inductive Act where
  | asks (ticket : Ticket)
  | handles (message : Message)
  | other

def Act.isHandling (a : Act) (test : Message → Bool) : Bool :=
  match a with
  | .handles m => test m
  | _ => false

theorem Act.isHandling_iff {a : Act} {test : Message → Bool} :
    a.isHandling test = true ↔ ∃ m, a = .handles m ∧ test m = true := by
  cases a <;> simp [isHandling]

/-- The ticket of what is asked. -/
def Message.ticket? : Message → Option Ticket
  | .ask t _ => some t
  | _ => none

namespace Form

def call? (f : Form) (run call : Nat) : Option Call :=
  f.runs[run]?.bind fun r => r.calls[call]?

def putCall (f : Form) (run call : Nat) (c : Call) : Form :=
  { f with runs := f.runs.modify run fun r => { r with calls := r.calls.set call c } }

/-- Holds of the notices of timers that were called off or set anew. -/
def hasCalledOff (f : Form) : Message → Bool
  | .debounceElapsed generation =>
    generation < f.debounce.generation ||
      generation = f.debounce.generation && !f.debounce.armed
  | .hideLoader generation => generation < f.loader.generation
  | _ => false

end Form

namespace Scene

def startCall? (s : Scene) (now run call : Nat) : Option Scene :=
  ((s.form.call? run call).filter fun c => c.state = .waiting).map fun c =>
    (s.update fun f => f.putCall run call (c.start now)).log
      (.callStarted c.callee s.guard.isBlocking)

def endCallAt? (s : Scene) (now run call : Nat) : Option Scene :=
  ((s.form.call? run call).filter fun c => c.isDue now).map fun c =>
    (s.update fun f => f.putCall run call { c with state := .ended }).log (.callEnded c.callee)

def finishRunAt? (s : Scene) (run : Nat) : Option Scene :=
  (s.form.runs[run]?.filter Run.isFinished).map fun r =>
    s.update fun f => { f with runs := f.runs.eraseIdx run }.post (.settled r.cycle r.failure?)

end Scene

namespace Moment

/-- Does a deed, if it can be done now. -/
def perform? (m : Moment) : Deed → Option Moment
  | .pass ms => some { m with now := m.now + ms }
  | .ask ticket request =>
    if m.nextTicket ≤ ticket then
      some { m with
        nextTicket := ticket + 1
        scene := m.scene.update fun f => f.post (.ask ticket request) }
    else none
  | .change path value =>
    some { m with scene := m.scene.update fun f => f.post (.fieldChanged path value) }
  | .stop => some { m with scene := m.scene.update fun f => { f with stopRequested := f.alive } }
  | .share guard => some { m with scene := { m.scene with guard } }
  | .close => if m.form.stopRequested then some { m with scene := m.scene.close } else none
  | .handle => (m.scene.handleNext? m.now).map fun scene => { m with scene }
  | .startCall run call => (m.scene.startCall? m.now run call).map fun scene => { m with scene }
  | .endCall run call => (m.scene.endCallAt? m.now run call).map fun scene => { m with scene }
  | .finishRun run => (m.scene.finishRunAt? run).map fun scene => { m with scene }
  | .fireDebounce => (m.scene.fireDebounce? m.now).map fun scene => { m with scene }
  | .fireHide => (m.scene.fireHide? m.now).map fun scene => { m with scene }
  | .finishLoad => (m.scene.finishLoad? m.now).map fun scene => { m with scene }
  | .straggle notice =>
    if m.form.hasCalledOff notice then
      some { m with scene := m.scene.update fun f => f.post notice }
    else none

/-- What a deed does for those who asked the form for something. -/
def act (m : Moment) : Deed → Act
  | .ask ticket _ => .asks ticket
  | .handle =>
    match m.form.mailbox with
    | [] => .other
    | message :: _ => .handles message
  | _ => .other

/-- A form that has just been started at some time, with the guard of its name. -/
def opening (c : FormConfig) (now : Nat) (guard : UnloadGuard) : Moment where
  now
  nextTicket := 0
  scene := (Scene.publishCurrent ⟨Form.make c now, guard⟩).land

end Moment

/-- What has been done, with the moments it was done in, the last deed first. -/
abbrev Log := List (Moment × Deed)

inductive Course (start : Moment) : Log → Moment → Prop where
  | here : Course start [] start
  | next {log : Log} {a b : Moment} {d : Deed} :
      Course start log a → a.perform? d = some b → Course start ((a, d) :: log) b

/-- A log around one of its deeds. -/
theorem Log.around {log : Log} {i : Nat} {x : Moment × Deed} (h : log[i]? = some x) :
    log = log.take i ++ x :: log.drop (i + 1) := by
  obtain ⟨inside, rfl⟩ := List.getElem?_eq_some_iff.mp h
  rw [← List.drop_eq_getElem_cons, List.take_append_drop]

namespace Course

variable {start a b m : Moment} {log later earlier : Log} {d : Deed}

theorem keeps {P : Moment → Prop}
    (step : ∀ {a b : Moment} {d : Deed}, a.perform? d = some b → P a → P b)
    (course : Course start log m) (first : P start) : P m := by
  induction course with
  | here => exact first
  | next _ done ih => exact step done ih

theorem append (before : Course start earlier a) (after : Course a later m) :
    Course start (later ++ earlier) m := by
  induction after with
  | here => exact before
  | next _ done ih => exact .next ih done

/-- A course can be looked at from any of its deeds. -/
theorem split (course : Course start (later ++ (a, d) :: earlier) m) :
    ∃ b, Course start earlier a ∧ a.perform? d = some b ∧ Course b later m := by
  induction later generalizing m with
  | nil =>
    cases course with
    | next before done => exact ⟨m, before, done, .here⟩
  | cons x later ih =>
    cases course with
    | next course done =>
      obtain ⟨b, before, first, after⟩ := ih course
      exact ⟨b, before, first, .next after done⟩

end Course

namespace Moment

/-- Does deeds one after another, and tells their log. -/
def performAll? (m : Moment) : List Deed → Option (Log × Moment)
  | [] => some ([], m)
  | d :: rest => do
    let next ← m.perform? d
    let (log, last) ← next.performAll? rest
    return (log ++ [(m, d)], last)

theorem course_of_performAll? {m last : Moment} {deeds : List Deed} {log : Log}
    (h : m.performAll? deeds = some (log, last)) : Course m log last := by
  induction deeds generalizing m log with
  | nil =>
    simp only [performAll?, Option.some.injEq, Prod.mk.injEq] at h
    obtain ⟨rfl, rfl⟩ := h
    exact .here
  | cons d rest ih =>
    simp only [performAll?, bind, Option.bind_eq_some_iff, pure, Option.some.injEq,
      Prod.mk.injEq] at h
    obtain ⟨next, first, ⟨log', last'⟩, others, rfl, rfl⟩ := h
    exact (Course.next .here first).append (ih others)

theorem deeds_of_performAll? {m last : Moment} {deeds : List Deed} {log : Log}
    (h : m.performAll? deeds = some (log, last)) : ∀ x ∈ log, x.2 ∈ deeds := by
  induction deeds generalizing m log with
  | nil =>
    simp only [performAll?, Option.some.injEq, Prod.mk.injEq] at h
    obtain ⟨rfl, rfl⟩ := h
    intro x inside
    cases inside
  | cons d rest ih =>
    simp only [performAll?, bind, Option.bind_eq_some_iff, pure, Option.some.injEq,
      Prod.mk.injEq] at h
    obtain ⟨next, _, ⟨log', last'⟩, others, rfl, rfl⟩ := h
    intro x inside
    rcases List.mem_append.mp inside with later | first
    · exact List.mem_cons_of_mem _ (ih others x later)
    · rw [List.mem_singleton.mp first]
      exact List.mem_cons_self

/-- Deeds that can be done make a course; its log and its last moment can be tested. -/
theorem course_of_test (m : Moment) (deeds : List Deed) (test : Log → Moment → Bool)
    (h : (m.performAll? deeds).any (fun r => test r.1 r.2) = true) :
    ∃ log last, Course m log last ∧ (∀ x ∈ log, x.2 ∈ deeds) ∧ test log last = true := by
  cases done : m.performAll? deeds with
  | none => simp [done] at h
  | some r =>
    exact ⟨r.1, r.2, course_of_performAll? done, deeds_of_performAll? done, by simpa [done] using h⟩

end Moment

/-- A form with a handler that takes five milliseconds. -/
def FormConfig.sample (auto : AutoSubmitConfig) (values : Json) : FormConfig :=
  { FormConfig.ofSettings .standard with
    defaults := .given values
    autoSubmit := auto
    handler := some [⟨5, .accepts⟩] }

end LiveForm
