import LiveForm.Form.Work

/-!
Forms side by side, with the guards they share and one clock. Forms are kept apart: nothing passes
between them but their tokens in a common guard. The clock, in milliseconds, stands still until all
that is due has been done.
-/

set_option autoImplicit false

namespace LiveForm

structure World where
  now : Nat
  forms : List Form
  guards : List (String × UnloadGuard)

namespace World

def empty : World := ⟨0, [], []⟩

instance : Inhabited World := ⟨empty⟩

/-- The guard that is known under a name. The shared guard is known from the start. -/
def guard? (w : World) (name : String) : Option UnloadGuard :=
  if name = FormConfig.sharedGuard then some ((Assoc.find? name w.guards).getD .new)
  else Assoc.find? name w.guards

/-- The guard of a name; one that is unknown is new. -/
def guard (w : World) (name : String) : UnloadGuard := (Assoc.find? name w.guards).getD .new

def putScene (w : World) (i : Nat) (s : Scene) : World :=
  { w with
    forms := w.forms.set i s.form
    guards := Assoc.insert s.form.setup.guardName s.guard w.guards }

/-- Acts on one form. -/
def act (w : World) (i : Nat) (change : Scene → Scene) : World :=
  match w.forms[i]? with
  | some f => w.putScene i (change ⟨f, w.guard f.setup.guardName⟩)
  | none => w

/-- Finishes all that is due at this instant. -/
def settle (w : World) : World :=
  (List.range w.forms.length).foldl (fun w i => w.act i fun s => s.settle w.now) w

/-- Starts a form, which shows its state at once. -/
def spawn (w : World) (c : FormConfig) : World :=
  let w' := { w with forms := w.forms ++ [Form.make c w.now] }
  w'.act w.forms.length fun s => s.publishCurrent.land

def nextAlarm? (w : World) : Option Nat := (w.forms.filterMap Form.nextAlarm?).min?

/-- More instants than can come due by themselves. -/
def alarmsAhead (w : World) : Nat := (w.forms.map Form.alarmsAhead).foldr (· + ·) 0

/-- Moves the clock and finishes what is due then. -/
def moveTo (w : World) (time : Nat) : World := settle { w with now := max w.now time }

/-- Moves the clock from one alarm to the next, up to a time. -/
def advanceWithin : Nat → World → Nat → World
  | 0, w, target => w.moveTo target
  | n + 1, w, target =>
    match w.nextAlarm? with
    | some t => if t ≤ target then advanceWithin n (w.moveTo t) target else w.moveTo target
    | none => w.moveTo target

/-- Lets so many milliseconds pass. -/
def advance (w : World) (ms : Nat) : World := advanceWithin w.alarmsAhead w (w.now + ms)

/-- How waiting ends. -/
inductive WaitResult where
  | reached
  | timeout
  | closed
  deriving DecidableEq, Repr

/-- Moves the clock from one alarm to the next until a form is as wanted or has ended, or the
deadline is there. Without a deadline it goes on as long as anything is due. -/
def waitWithin : Nat → World → Nat → (Form → Bool) → Option Nat → World × WaitResult
  | 0, w, _, _, deadline => (w.moveTo (deadline.getD w.now), .timeout)
  | n + 1, w, i, wanted, deadline =>
    match w.forms[i]? with
    | none => (w, .closed)
    | some f =>
      if wanted f then (w, .reached)
      else if !f.alive then (w, .closed)
      else
        match w.nextAlarm?.filter fun t => deadline.all fun d => t < d with
        | some t => waitWithin n (w.moveTo t) i wanted deadline
        | none => (w.moveTo (deadline.getD w.now), .timeout)

/-- Waits for at most so many milliseconds until a form is as wanted. -/
def wait (w : World) (i : Nat) (wanted : Form → Bool) (timeout : Option Nat) : World × WaitResult :=
  waitWithin (w.alarmsAhead + 1) w i wanted (timeout.map fun ms => w.now + ms)

end World

end LiveForm
