import LiveForm.Rule

/-!
What a submission carries, how it is answered, and how it fails.
-/

set_option autoImplicit false

namespace LiveForm

/-- What started a submission: the form itself after an edit, or a request to submit. -/
inductive Trigger where
  | auto
  | manual
  deriving DecidableEq, Repr, Inhabited

/-- The failure of a submit handler or a field listener. -/
inductive SubmitError where
  | rejected (message : String)
  | panicked (message : String)
  deriving DecidableEq, Repr

def SubmitError.message : SubmitError → String
  | .rejected message => message
  | .panicked message => "Submit handler panicked: " ++ message

/-- What a submit handler is given. -/
structure SubmitData where
  submissionId : String
  values : Json
  dirtyValues : Json
  trigger : Trigger
  deriving Inhabited, Repr

/-- What a request to submit is told once its submission has settled. -/
inductive SubmitOutcome where
  | submitted (submissionId : String) (dirtyValues : Json)
  | invalid (errors : FieldErrors)
  | rejected (submissionId message : String)
  deriving Repr

def SubmitOutcome.isSubmitted : SubmitOutcome → Bool
  | .submitted _ _ => true
  | _ => false

end LiveForm
