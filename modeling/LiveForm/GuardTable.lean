import LiveForm.Assoc
import LiveForm.UnloadGuard

/-!
Guards under names. A name stands for a handle, and several handles may belong to one guard; a
token, also named, belongs to the guard it was taken from. A name that is used for the first time
gets a guard of its own.
-/

set_option autoImplicit false

namespace LiveForm

/-- Handles with the places of their guards, and tokens with the places of their guards and their
ids. -/
structure GuardTable where
  guards : List UnloadGuard
  handles : List (String × Nat)
  tokens : List (String × Nat × Nat)
  deriving Repr

namespace GuardTable

def empty : GuardTable := ⟨[], [], []⟩

def guardAt (t : GuardTable) (place : Nat) : UnloadGuard := t.guards[place]?.getD .new

/-- The guard of a handle. -/
def guard (t : GuardTable) (name : String) : UnloadGuard :=
  ((Assoc.find? name t.handles).map t.guardAt).getD .new

def put (t : GuardTable) (place : Nat) (g : UnloadGuard) : GuardTable :=
  { t with guards := t.guards.set place g }

/-- The place of a handle's guard, which is made if the name is new. -/
def place (t : GuardTable) (name : String) : GuardTable × Nat :=
  match Assoc.find? name t.handles with
  | some place => (t, place)
  | none =>
    ({ t with
        guards := t.guards ++ [.new]
        handles := Assoc.insert name t.guards.length t.handles }, t.guards.length)

/-- Gives a token back, wherever it came from. -/
def drop (t : GuardTable) (place id : Nat) : GuardTable :=
  t.put place ((t.guardAt place).release id)

/-- Gives back the token of a name; `false` if the name holds none. -/
def release (t : GuardTable) (token : String) : GuardTable × Bool :=
  match Assoc.find? token t.tokens with
  | some (place, id) => ({ t.drop place id with tokens := Assoc.erase token t.tokens }, true)
  | none => (t, false)

/-- Takes a token under a name, and tells its id. A token the name already held is given back
after that. -/
def acquire (t : GuardTable) (name token message : String) : GuardTable × Nat :=
  let (t, place) := t.place name
  let id := (t.guardAt place).nextId
  let t := ((t.put place ((t.guardAt place).acquire message)).release token).1
  ({ t with tokens := Assoc.insert token (place, id) t.tokens }, id)

/-- Makes one name stand for the guard of another. -/
def clone (t : GuardTable) (name copy : String) : GuardTable :=
  let (t, place) := t.place name
  { t with handles := Assoc.insert copy place t.handles }

/-- Takes a token for the time of an act that fails, and tells how many were held during it. -/
def duringFailure (t : GuardTable) (name message : String) : GuardTable × Nat :=
  let (t, place) := t.place name
  let id := (t.guardAt place).nextId
  let t := t.put place ((t.guardAt place).acquire message)
  (t.drop place id, (t.guardAt place).activeCount)

/-- Uses a name without doing anything with it. -/
def mention (t : GuardTable) (name : String) : GuardTable := (t.place name).1

end GuardTable

end LiveForm
