import LiveForm.Rule

/-!
What a form shows to those who watch it.
-/

set_option autoImplicit false

namespace LiveForm

/-- Where a form stands. The two settled phases are passed through: a form that rests is idle,
scheduled or submitting. -/
inductive FormPhase where
  | idle
  | scheduled
  | submitting
  | settledOk
  | settledError
  deriving DecidableEq, Repr, Inhabited

def FormPhase.name : FormPhase → String
  | .idle => "idle"
  | .scheduled => "scheduled"
  | .submitting => "submitting"
  | .settledOk => "settled_ok"
  | .settledError => "settled_error"

/-- The state of a form as its observers see it. Fields are named by their displayed paths. -/
structure Snapshot where
  phase : FormPhase
  isDirty : Bool
  isSubmitting : Bool
  isSubmitSuccessful : Bool
  isLoading : Bool
  showLoader : Bool
  submitCount : UInt32
  dirtyPaths : List String
  errors : FieldErrors
  lastSubmissionId : Option String
  deriving DecidableEq, Repr, Inhabited

/-- What is seen of a form before it shows anything. -/
def Snapshot.blank : Snapshot where
  phase := .idle
  isDirty := false
  isSubmitting := false
  isSubmitSuccessful := false
  isLoading := false
  showLoader := false
  submitCount := 0
  dirtyPaths := []
  errors := []
  lastSubmissionId := none

structure SubmitButton where
  visible : Bool
  enabled : Bool
  label : String
  deriving DecidableEq, Repr, Inhabited

end LiveForm
