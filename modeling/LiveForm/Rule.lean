import LiveForm.Json.Tree
import LiveForm.Json.Writer
import LiveForm.Number.Decimal
import LiveForm.Pattern

/-!
Rules for the value of a field. A value passes if no rule fails it; of several failures the first
rule gives the message. Bounds speak of numbers and of text that spells one, lengths of text and
lists, patterns of text; a rule passes values it does not speak of.

A field without the rule `required` is optional: as long as it is empty, only custom rules look at
it.
-/

set_option autoImplicit false

namespace LiveForm

/-- The answer of a custom rule. -/
inductive Verdict where
  | accept
  | reject (message : String)
  | panic
  deriving DecidableEq, Repr

inductive Rule where
  | required
  | atLeast (bound : Binary64)
  | atMost (bound : Binary64)
  | minLength (n : Nat)
  | maxLength (n : Nat)
  | pattern (p : Pattern)
  | custom (check : Json → Verdict)

namespace Rule

/-- Nothing entered: `null`, blank text or a list without items. -/
def isEmptyValue : Json → Bool
  | .null => true
  | .str s => Text.isBlankText s
  | .arr xs => xs.isEmpty
  | _ => false

/-- The number that bounds apply to. -/
def number? : Json → Option Binary64
  | .int n => some (Binary64.ofInt n)
  | .float x => some x
  | .str s => Binary64.ofText? (Text.trim s)
  | _ => none

/-- Characters of a text, items of a list. -/
def length? : Json → Option Nat
  | .str s => some s.length
  | .arr xs => some xs.length
  | _ => none

def isRequired : Rule → Bool
  | .required => true
  | _ => false

def isCustom : Rule → Bool
  | .custom _ => true
  | _ => false

/-- The message of the rule for a value that fails it. A custom rule that panics fails its field
and nothing else. -/
def failure? (r : Rule) (v : Json) : Option String :=
  match r with
  | .required => if isEmptyValue v then some "This field is required" else none
  | .atLeast bound =>
    match number? v with
    | some n => if n.lt bound then some s!"Value must be at least {bound.plainText}" else none
    | none => none
  | .atMost bound =>
    match number? v with
    | some n => if bound.lt n then some s!"Value must be at most {bound.plainText}" else none
    | none => none
  | .minLength n =>
    match length? v with
    | some len => if len < n then some s!"Length must be at least {n}" else none
    | none => none
  | .maxLength n =>
    match length? v with
    | some len => if n < len then some s!"Length must be at most {n}" else none
    | none => none
  | .pattern p =>
    match v with
    | .str s => if p.matches s then none else some s!"Value does not match {p.source}"
    | _ => none
  | .custom check =>
    match check v with
    | .accept => none
    | .reject message => some message
    | .panic => some "Validation failed"

/-- Holds if the rules pass over this rule for this value. -/
def isSkipped (rules : List Rule) (v : Json) (r : Rule) : Bool :=
  !rules.any isRequired && isEmptyValue v && !r.isCustom

/-- The message of the first rule that fails a value; a missing value counts as `null`. -/
def firstFailure? (rules : List Rule) (value : Option Json) : Option String :=
  let v := value.getD .null
  rules.findSome? fun r => if isSkipped rules v r then none else r.failure? v

/-- How a rule appears in summaries. -/
def summary : Rule → String
  | .required => "Required"
  | .atLeast bound => s!"Min({bound.plainText})"
  | .atMost bound => s!"Max({bound.plainText})"
  | .minLength n => s!"MinLength({n})"
  | .maxLength n => s!"MaxLength({n})"
  | .pattern p => s!"Pattern({p.source})"
  | .custom _ => "Custom(..)"

/-- The stock of custom rules: `pass`, `not_null`, `echo`, `panic`. Any other name is a rule that
rejects everything with its name. -/
def named (name : String) : Rule :=
  .custom fun v =>
    if name = "pass" then .accept
    else if name = "not_null" then
      match v with
      | .null => .reject "missing"
      | _ => .accept
    else if name = "panic" then .panic
    else if name = "echo" then .reject ("got " ++ v.compact)
    else .reject name

end Rule

/-- Messages by the displayed path of their field. -/
abbrev FieldErrors := List (String × String)

/-- The failures of fields in the values of a form; of two fields with one display the later
failure stays. -/
def validateFields (fields : List (FieldPath × List Rule)) (values : Json) : FieldErrors :=
  fields.foldl (fun errors (path, rules) =>
    match Rule.firstFailure? rules (values.get? path) with
    | some message => Assoc.insert path.display message errors
    | none => errors) []

end LiveForm
