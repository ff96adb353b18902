import LiveForm.Callback
import LiveForm.Catalog
import LiveForm.Settings

/-!
What a form is made from. Times are in milliseconds.
-/

set_option autoImplicit false

namespace LiveForm

/-- What a loader of default values brings: values, an error, or nothing at all. -/
inductive LoadOutcome where
  | values (v : Json)
  | fails (message : String)
  | panics
  deriving Repr

/-- The values a form starts from, at hand or still to be loaded. -/
inductive Defaults where
  | given (values : Json)
  | loaded (latency : Nat) (outcome : LoadOutcome)
  deriving Repr

structure FormConfig where
  defaults : Defaults
  autoSubmit : AutoSubmitConfig
  handler : Option Plan
  onInvalid : Option Callback
  observer : Option Callback
  hideSubmitButton : Bool
  submitButtonText : Option String
  disableLoader : Bool
  loaderDelay : Nat
  defaultWait : Option Nat
  notifier : Callback
  catalog : Catalog
  guardName : String

namespace FormConfig

/-- The guard of forms that name none. -/
def sharedGuard : String := "global"

def ofSettings (s : Settings) : FormConfig where
  defaults := .given .emptyObject
  autoSubmit := ⟨false, none⟩
  handler := none
  onInvalid := none
  observer := none
  hideSubmitButton := false
  submitButtonText := none
  disableLoader := false
  loaderDelay := s.loaderDelay.toNat
  defaultWait := s.defaultWait.map UInt64.toNat
  notifier := .steady
  catalog := .forLocale s.locale
  guardName := sharedGuard

/-- How long the form waits after an edit before it submits on its own; `none` for not at all. -/
def effectiveWait (c : FormConfig) : Option Nat :=
  (c.autoSubmit.wait.map UInt64.toNat <|> c.defaultWait).filter (· ≠ 0)

end FormConfig

end LiveForm
