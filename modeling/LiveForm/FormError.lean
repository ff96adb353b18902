import LiveForm.FieldPath.Basic

/-!
Why a form turns a request down, or cannot be asked at all.
-/

set_option autoImplicit false

namespace LiveForm

/-- Why a request has no answer: the form was gone before it could be sent, the form ended with the
request still open, or the form ended without ever showing what was waited for. -/
inductive Unreachable where
  | gone
  | unanswered
  | closed
  deriving DecidableEq, Repr

def Unreachable.message : Unreachable → String
  | .gone =>
    "Messaging failed to enqueue the message to the specified actor, the actor is likely terminated"
  | .unanswered => "Messaging failed because channel is closed"
  | .closed => "channel closed"

inductive FormError where
  | invalidPath (e : PathError)
  | unknownField (path : String)
  | spawn (reason : String)
  | unreachable (why : Unreachable)
  deriving DecidableEq, Repr

def FormError.message : FormError → String
  | .invalidPath e => "Invalid field path: " ++ e.message
  | .unknownField path => s!"Unknown field '{path}': not part of the form values"
  | .spawn reason => "Failed to spawn form actor: " ++ reason
  | .unreachable why => "Form actor RPC error: " ++ why.message

end LiveForm
