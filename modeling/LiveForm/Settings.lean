import LiveForm.Text.Natural
import LiveForm.Text.Blank

/-!
Settings of the whole engine, and how a form is told to submit on its own. Times are in
milliseconds.
-/

set_option autoImplicit false

namespace LiveForm

/-- Whether a form submits on its own, and how long it waits after an edit. -/
structure AutoSubmitConfig where
  enable : Bool
  wait : Option UInt64
  deriving DecidableEq, Repr, Inhabited

/-- What one writes to configure it: a switch, or a switch with a wait. -/
inductive AutoSubmit where
  | toggle (on : Bool)
  | config (enable : Bool) (wait : Option UInt64)
  deriving DecidableEq, Repr, Inhabited

def AutoSubmit.toConfig : AutoSubmit → AutoSubmitConfig
  | .toggle on => ⟨on, none⟩
  | .config enable wait => ⟨enable, wait⟩

/-- The wait for forms that name none, how long the loader stays after a submission, and the
language of messages. -/
structure Settings where
  defaultWait : Option UInt64
  loaderDelay : UInt64
  locale : String
  deriving DecidableEq, Repr

namespace Settings

def standard : Settings := ⟨none, 750, "en"⟩

instance : Inhabited Settings := ⟨standard⟩

/-- A number of milliseconds, blanks around it allowed. -/
def milliseconds? (text : String) : Option UInt64 := Text.word? (Text.trim text)

/-- Reads the environment. What is missing or cannot be read keeps its standard value; a locale
that is not blank is taken as it is. -/
def ofEnvironment (lookup : String → Option String) : Settings where
  defaultWait := (lookup "AUTOFORM_DEFAULT_WAIT_MS").bind milliseconds?
  loaderDelay :=
    ((lookup "AUTOFORM_LOADER_DELAY_MS").bind milliseconds?).getD standard.loaderDelay
  locale :=
    ((lookup "AUTOFORM_LOCALE").filter fun v => !Text.isBlankText v).getD standard.locale

end Settings

end LiveForm
