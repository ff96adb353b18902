import LiveForm.Form.Handling

/-!
What a form does when nobody asks anything of it: it handles its mailbox, and its runs and timers
come due and put messages there. Messages go before everything else, so calls start, and calls
without latency end, only when the mailbox is empty.

At one instant a form makes fewer steps than its `work`, which each step lowers; and as long as
nobody asks anything of it, fewer instants come due than it has `alarmsAhead`, which each of them
lowers. The loops here and in the world run for that long.
-/

set_option autoImplicit false

namespace LiveForm

namespace Call

/-- The call with its latency ahead of it. -/
def start (c : Call) (now : Nat) : Call :=
  if c.state = .waiting then { c with state := .running (now + c.response.latency) } else c

def isOpen (c : Call) : Bool := c.state ≠ .ended

def due? (c : Call) : Option Nat :=
  match c.state with
  | .running due => some due
  | _ => none

def isDue (c : Call) (now : Nat) : Bool := c.due?.any fun due => due ≤ now

end Call

namespace Run

def isFresh (r : Run) : Bool := r.calls.any fun c => c.state = .waiting

def openCalls (r : Run) : Nat := (r.calls.filter Call.isOpen).length

def isFinished (r : Run) : Bool := !r.calls.any Call.isOpen

def start (r : Run) (now : Nat) : Run := { r with calls := r.calls.map fun c => c.start now }

/-- The first failure in the order of the calls, whichever call ended first. -/
def failure? (r : Run) : Option SubmitError := r.calls.findSome? fun c => c.response.answer.failure?

/-- Ends the first call that is due. -/
def endFirst? (now : Nat) : List Call → Option (Callee × List Call)
  | [] => none
  | c :: rest =>
    if c.isDue now then some (c.callee, { c with state := .ended } :: rest)
    else (endFirst? now rest).map fun (callee, rest) => (callee, c :: rest)

def endCall? (r : Run) (now : Nat) : Option (Callee × Run) :=
  (endFirst? now r.calls).map fun (callee, calls) => (callee, { r with calls })

end Run

namespace Form

/-- The first run that is fresh, with the runs once it has started. -/
def startFirst? (now : Nat) : List Run → Option (Run × List Run)
  | [] => none
  | r :: rest =>
    if r.isFresh then some (r, r.start now :: rest)
    else (startFirst? now rest).map fun (run, rest) => (run, r :: rest)

/-- The first call that is due, with the runs once it has ended. -/
def endFirst? (now : Nat) : List Run → Option (Callee × List Run)
  | [] => none
  | r :: rest =>
    match r.endCall? now with
    | some (callee, r) => some (callee, r :: rest)
    | none => (endFirst? now rest).map fun (callee, rest) => (callee, r :: rest)

/-- The first run that is finished, with the other runs. -/
def finishFirst? : List Run → Option (Run × List Run)
  | [] => none
  | r :: rest =>
    if r.isFinished then some (r, rest)
    else (finishFirst? rest).map fun (run, rest) => (run, r :: rest)

/-- When something of this form comes due. -/
def alarms (f : Form) : List Nat :=
  (f.debounce.timer.map Timer.due).toList ++ (f.loader.hideTimer.map Timer.due).toList ++
    (f.load.map Load.due).toList ++ f.runs.flatMap fun r => r.calls.filterMap Call.due?

def nextAlarm? (f : Form) : Option Nat := f.alarms.min?

end Form

def Message.isRegistration : Message → Bool
  | .ask _ (.register _ _) => true
  | _ => false

/-- The steps that a message can lead to when a cycle makes at most so many calls. -/
def Message.work (calls : Nat) : Message → Nat
  | .ask _ (.setValue _ _ _) => calls + 6
  | .ask _ .submit => calls + 4
  | .fieldChanged _ _ => calls + 6
  | .debounceElapsed _ => calls + 4
  | _ => 1

/-- The alarms that a message can lead to when a cycle makes at most so many calls. -/
def Message.alarmsAhead (calls : Nat) : Message → Nat
  | .ask _ (.setValue _ _ _) => calls + 2
  | .ask _ .submit => calls + 1
  | .fieldChanged _ _ => calls + 2
  | .debounceElapsed _ => calls + 1
  | .settled _ _ => 1
  | _ => 0

/-- The steps of a run: one to start, one for each call, one to report, one to handle the report. -/
def Run.work (r : Run) : Nat := r.openCalls + (if r.isFresh then 1 else 0) + 2

namespace Form

/-- Cycles make at most so many calls, with the fields that are about to be registered. -/
def callBound (f : Form) : Nat :=
  f.registry.size + (f.mailbox.filter Message.isRegistration).length + 1

def work (f : Form) (now : Nat) : Nat :=
  (f.mailbox.map fun m => m.work f.callBound).foldr (· + ·) 0 +
    (f.runs.map Run.work).foldr (· + ·) 0 +
    (if f.deferred.isSome then f.callBound + 3 else 0) +
    (if f.debounce.timer.any fun t => t.due ≤ now then f.callBound + 5 else 0) +
    (if f.loader.hideTimer.any fun t => t.due ≤ now then 2 else 0) +
    (if f.load.any fun l => l.due ≤ now then 2 else 0) +
    (if f.stopRequested then 1 else 0)

/-- Each call that is open, the loader after each run, and what timers, loads and messages can
bring about. -/
def alarmsAhead (f : Form) : Nat :=
  (f.mailbox.map fun m => m.alarmsAhead f.callBound).foldr (· + ·) 0 +
    (f.runs.map fun r => r.openCalls + 1).foldr (· + ·) 0 +
    (if f.deferred.isSome then f.callBound + 1 else 0) +
    (if f.debounce.timer.isSome then f.callBound + 2 else 0) +
    (if f.loader.hideTimer.isSome then 1 else 0) +
    (if f.load.isSome then 1 else 0)

end Form

namespace Scene

/-- Starts the calls of the first fresh run, in their order. -/
def startRun? (s : Scene) (now : Nat) : Option Scene :=
  (Form.startFirst? now s.form.runs).map fun (run, runs) =>
    run.calls.foldl (fun s c => s.log (.callStarted c.callee s.guard.isBlocking))
      (s.update fun f => { f with runs })

def endCall? (s : Scene) (now : Nat) : Option Scene :=
  (Form.endFirst? now s.form.runs).map fun (callee, runs) =>
    (s.update fun f => { f with runs }).log (.callEnded callee)

/-- A run that is finished reports what came of it. -/
def finishRun? (s : Scene) : Option Scene :=
  (Form.finishFirst? s.form.runs).map fun (run, runs) =>
    s.update fun f => { f with runs }.post (.settled run.cycle run.failure?)

def fireDebounce? (s : Scene) (now : Nat) : Option Scene :=
  (s.form.debounce.timer.filter fun t => t.due ≤ now).map fun t =>
    s.update fun f =>
      { f with debounce := { f.debounce with timer := none } }.post (.debounceElapsed t.generation)

def fireHide? (s : Scene) (now : Nat) : Option Scene :=
  (s.form.loader.hideTimer.filter fun t => t.due ≤ now).map fun t =>
    s.update fun f =>
      { f with loader := { f.loader with hideTimer := none } }.post (.hideLoader t.generation)

/-- The message a load ends with. A loader that panics sends none. -/
def loadMessage? : LoadOutcome → Option Message
  | .values v => some (.loaded (.ok v))
  | .fails message => some (.loaded (.error message))
  | .panics => none

def finishLoad? (s : Scene) (now : Nat) : Option Scene :=
  (s.form.load.filter fun l => l.due ≤ now).map fun l =>
    s.update fun f =>
      match loadMessage? l.outcome with
      | some m => { f with load := none }.post m
      | none => { f with load := none }

/-- Handles the message at the head of the mailbox. -/
def handleNext? (s : Scene) (now : Nat) : Option Scene :=
  match s.form.mailbox with
  | [] => none
  | m :: rest => some ((s.update fun f => { f with mailbox := rest }).handle now m).land

/-- The next thing to happen at this instant, `none` if nothing is left but what is due later. A
request to stop is heard before all messages. -/
def tick? (s : Scene) (now : Nat) : Option Scene :=
  if s.form.stopRequested then some s.close
  else
    s.handleNext? now <|> s.startRun? now <|> s.endCall? now <|> s.finishRun? <|>
      s.fireDebounce? now <|> s.fireHide? now <|> s.finishLoad? now

/-- Goes on until nothing is left, for at most so many steps. -/
def settleWithin : Nat → Scene → Nat → Scene
  | 0, s, _ => s
  | n + 1, s, now =>
    match s.tick? now with
    | some s => settleWithin n s now
    | none => s

/-- Goes on until nothing is left to do at this instant. -/
def settle (s : Scene) (now : Nat) : Scene := settleWithin (s.form.work now) s now

end Scene

end LiveForm
