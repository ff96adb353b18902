import LiveForm.FormError
import LiveForm.Rule

/-!
The fields of a form that something is attached to: a listener, rules, a hook. Fields stand in the
order of their paths.

A field registers again whenever it is shown again. Its listener then stays unless it brings a new
one, while its rules and its hook are those it brings.
-/

set_option autoImplicit false

namespace LiveForm

/-- What is attached to a field, by kinds of listeners and hooks. -/
structure Field (ℓ η : Type) where
  listener : Option ℓ
  rules : List Rule
  hook : Option η

structure Registry (ℓ η : Type) where
  fields : List (FieldPath × Field ℓ η)

namespace Registry

variable {ℓ η : Type}

def empty : Registry ℓ η := ⟨[]⟩

instance : Inhabited (Registry ℓ η) := ⟨empty⟩

def size (r : Registry ℓ η) : Nat := r.fields.length

def isEmpty (r : Registry ℓ η) : Bool := r.fields.isEmpty

def find? (r : Registry ℓ η) (p : FieldPath) : Option (Field ℓ η) := Assoc.find? p r.fields

def isRegistered (r : Registry ℓ η) (p : FieldPath) : Bool := Assoc.contains p r.fields

def listener? (r : Registry ℓ η) (p : FieldPath) : Option ℓ := (r.find? p).bind Field.listener

def hook? (r : Registry ℓ η) (p : FieldPath) : Option η := (r.find? p).bind Field.hook

/-- The listeners in the order of their paths. -/
def listeners (r : Registry ℓ η) : List (FieldPath × ℓ) :=
  r.fields.filterMap fun (p, field) => field.listener.map fun l => (p, l)

/-- Values that tell which fields there are: an object with something in it. -/
def isSchema : Json → Bool
  | .obj ms => !ms.isEmpty
  | _ => false

/-- Holds of a path that is there, and of a slot of a list that is there. As long as nothing is
known of the values, every path fits. -/
def fits (schema : Json) (p : FieldPath) : Bool :=
  !isSchema schema || schema.has p ||
    match p.parent? with
    | some parent => (schema.get? parent).any Json.isArray
    | none => false

/-- Attaches to a field, which has to fit the schema. -/
def register (r : Registry ℓ η) (p : FieldPath) (new : Field ℓ η) (schema : Json) :
    Except FormError (Registry ℓ η) :=
  if fits schema p then
    .ok ⟨Assoc.insert p { new with listener := new.listener <|> r.listener? p } r.fields⟩
  else .error (.unknownField p.display)

def unregister (r : Registry ℓ η) (paths : List FieldPath) : Registry ℓ η :=
  ⟨paths.foldl (fun fields p => Assoc.erase p fields) r.fields⟩

/-- The fields that do not fit a schema. -/
def misfits (r : Registry ℓ η) (schema : Json) : List FieldPath :=
  (Assoc.keys r.fields).filter fun p => !fits schema p

def retainFitting (r : Registry ℓ η) (schema : Json) : Registry ℓ η :=
  r.unregister (r.misfits schema)

/-- The failures of the fields in the values of a form. -/
def validate (r : Registry ℓ η) (values : Json) : FieldErrors :=
  validateFields (r.fields.map fun (p, field) => (p, field.rules)) values

end Registry

end LiveForm
