/-!
A guard against leaving while work is under way. It blocks as long as one of its tokens is held;
giving the token back is the only way to release it. Token ids grow, so the tokens stand in the
order in which they were taken.
-/

set_option autoImplicit false

namespace LiveForm

/-- The id the next token gets, and the tokens held with the message each asks to show. -/
structure UnloadGuard where
  nextId : Nat
  active : List (Nat × String)
  deriving DecidableEq, Repr, Inhabited

/-- Whether one may leave the page. -/
inductive NavigationDecision where
  | proceed
  | confirm (message : String)
  deriving DecidableEq, Repr

namespace UnloadGuard

def new : UnloadGuard := ⟨0, []⟩

/-- Takes a token; it is the one with the id that was next. -/
def acquire (g : UnloadGuard) (message : String) : UnloadGuard :=
  ⟨g.nextId + 1, g.active ++ [(g.nextId, message)]⟩

def release (g : UnloadGuard) (id : Nat) : UnloadGuard :=
  { g with active := g.active.filter fun t => t.1 ≠ id }

def activeCount (g : UnloadGuard) : Nat := g.active.length

def isBlocking (g : UnloadGuard) : Bool := !g.active.isEmpty

/-- The message of the oldest token held. -/
def beforeUnload? (g : UnloadGuard) : Option String := g.active.head?.map Prod.snd

def confirmNavigation (g : UnloadGuard) : NavigationDecision :=
  match g.beforeUnload? with
  | some message => .confirm message
  | none => .proceed

end UnloadGuard

end LiveForm
