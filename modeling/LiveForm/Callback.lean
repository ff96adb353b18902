import LiveForm.Submission

/-!
What the host of a form attaches to it, by its behaviour: handlers and listeners that take time and
give an answer, and callbacks that return at once or fail.
-/

set_option autoImplicit false

namespace LiveForm

/-- How a handler or a listener ends. A failure may come with a text. -/
inductive Answer where
  | accepts
  | fails (e : SubmitError)
  | panics (text : Option String)
  deriving DecidableEq, Repr, Inhabited

/-- What a submission makes of an answer: `none` stands for success. -/
def Answer.failure? : Answer → Option SubmitError
  | .accepts => none
  | .fails e => some e
  | .panics text => some (.panicked (text.getD "handler panicked"))

/-- An answer and the time it takes. -/
structure Response where
  latency : Nat
  answer : Answer
  deriving DecidableEq, Repr, Inhabited

/-- The responses to successive calls; the last one repeats. -/
abbrev Plan := List Response

/-- The response to the call after `n` others. -/
def Plan.response (p : Plan) (n : Nat) : Response := (p[n]? <|> p.getLast?).getD default

/-- The handler of whole submissions. -/
structure Handler where
  plan : Plan
  calls : Nat
  deriving DecidableEq, Repr

/-- The listener of one field, under the name its host gave the field. -/
structure Listener where
  label : String
  plan : Plan
  calls : Nat
  deriving DecidableEq, Repr

namespace Handler

def response (h : Handler) : Response := h.plan.response h.calls

def called (h : Handler) : Handler := { h with calls := h.calls + 1 }

end Handler

namespace Listener

def response (l : Listener) : Response := l.plan.response l.calls

def called (l : Listener) : Listener := { l with calls := l.calls + 1 }

end Listener

/-- A hook that sees every change of its field. One that fails fails alone. -/
structure Hook where
  fails : Bool
  deriving DecidableEq, Repr

/-- A callback that returns at once. The call numbered `failsAt`, counted from one, fails and takes
the form down with it. -/
structure Callback where
  failsAt : Option Nat
  calls : Nat
  deriving DecidableEq, Repr

namespace Callback

/-- A callback that never fails. -/
def steady : Callback := ⟨none, 0⟩

/-- A callback whose `n`-th call fails. -/
def failingAt (n : Nat) : Callback := ⟨some n, 0⟩

def called (c : Callback) : Callback := { c with calls := c.calls + 1 }

/-- Holds if the next call fails. -/
def failsNext (c : Callback) : Bool := c.failsAt == some (c.calls + 1)

end Callback

end LiveForm
