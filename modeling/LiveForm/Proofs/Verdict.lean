import Mathlib.Data.List.Induction
import LiveForm.Proofs.Assoc
import LiveForm.Rule

/-!
# What rules make of values

* `Rule.LooksAt`, `Rule.Rejects`: which rules count for a value, and which message it gets;
* `Rule.accepts_of_subset`: values that rules accept are accepted by some of them, so neither the
  order of rules nor their repetition counts for what they accept;
* `find?_validateFields`: under each text stands the failure of the last field that has one and is
  displayed so;
* `validation_verdict`: fields are valid iff the rules of each accept its value.
-/

set_option autoImplicit false

namespace LiveForm

namespace Rule

variable {rules rules' : List Rule} {r : Rule} {v : Json} {value : Option Json} {message : String}

/-- A rule among others counts for a value: one of them requires a value, or there is one, or the
rule is custom. -/
def LooksAt (rules : List Rule) (v : Json) (r : Rule) : Prop :=
  .required ∈ rules ∨ isEmptyValue v = false ∨ ∃ check, r = .custom check

/-- The first rule that counts for the value and fails it gives the message. -/
def Rejects (rules : List Rule) (v : Json) (message : String) : Prop :=
  ∃ before r after, rules = before ++ r :: after ∧ LooksAt rules v r ∧
    r.failure? v = some message ∧ ∀ x ∈ before, LooksAt rules v x → x.failure? v = none

theorem isRequired_iff : r.isRequired = true ↔ r = .required := by
  cases r <;> simp [isRequired]

theorem isCustom_iff : r.isCustom = true ↔ ∃ check, r = .custom check := by
  cases r <;> simp [isCustom]

theorem isSkipped_iff : isSkipped rules v r = false ↔ LooksAt rules v r := by
  have required : rules.any isRequired = true ↔ .required ∈ rules := by
    rw [List.any_eq_true]
    constructor
    · rintro ⟨x, inside, requires⟩
      exact isRequired_iff.mp requires ▸ inside
    · intro inside
      exact ⟨.required, inside, rfl⟩
  rw [LooksAt, ← required, ← isCustom_iff, isSkipped]
  cases rules.any isRequired <;> cases isEmptyValue v <;> cases r.isCustom <;> simp

/-- A rule that counts for a value speaks for itself, and the others pass it. -/
theorem verdict_eq_some :
    (if isSkipped rules v r then none else r.failure? v) = some message ↔
      LooksAt rules v r ∧ r.failure? v = some message := by
  rw [Option.ite_none_left_eq_some, Bool.not_eq_true, isSkipped_iff]

theorem verdict_eq_none :
    (if isSkipped rules v r then none else r.failure? v) = none ↔
      (LooksAt rules v r → r.failure? v = none) := by
  rw [← isSkipped_iff]
  cases isSkipped rules v r <;> simp

theorem firstFailure?_eq_some :
    firstFailure? rules value = some message ↔ Rejects rules (value.getD .null) message := by
  simp only [firstFailure?, List.findSome?_eq_some_iff, verdict_eq_some, verdict_eq_none, Rejects,
    and_assoc]

theorem firstFailure?_eq_none : firstFailure? rules value = none ↔
    ∀ r ∈ rules, LooksAt rules (value.getD .null) r → r.failure? (value.getD .null) = none := by
  simp only [firstFailure?, List.findSome?_eq_none_iff, verdict_eq_none]

/-- With more rules no fewer of them count. -/
theorem LooksAt.mono (h : LooksAt rules v r) (sub : rules ⊆ rules') : LooksAt rules' v r :=
  h.imp_left fun required => sub required

theorem accepts_of_subset (sub : rules ⊆ rules') (accepts : firstFailure? rules' value = none) :
    firstFailure? rules value = none := by
  rw [firstFailure?_eq_none] at accepts ⊢
  intro r inside looks
  exact accepts r (sub inside) (looks.mono sub)

end Rule

open Rule

/-! ## Fields -/

section Fields

variable {fields : List (FieldPath × List Rule)} {values : Json} {text message : String}

/-- The failure of a field that is displayed so. -/
def failureUnder? (values : Json) (text : String) (field : FieldPath × List Rule) : Option String :=
  if field.1.display = text then firstFailure? field.2 (values.get? field.1) else none

theorem failureUnder?_eq_some {field : FieldPath × List Rule} :
    failureUnder? values text field = some message ↔
      field.1.display = text ∧ firstFailure? field.2 (values.get? field.1) = some message :=
  Option.ite_none_right_eq_some

theorem failureUnder?_eq_none {field : FieldPath × List Rule} :
    failureUnder? values text field = none ↔
      (field.1.display = text → firstFailure? field.2 (values.get? field.1) = none) := by
  unfold failureUnder?
  split
  · rename_i shown
    exact ⟨fun passes _ => passes, fun passes => passes shown⟩
  · rename_i other
    exact iff_of_true rfl fun shown => absurd shown other

theorem validateFields_concat (fields : List (FieldPath × List Rule)) (path : FieldPath)
    (rules : List Rule) (values : Json) : validateFields (fields ++ [(path, rules)]) values =
      match firstFailure? rules (values.get? path) with
      | some message => Assoc.insert path.display message (validateFields fields values)
      | none => validateFields fields values := by
  rw [validateFields, List.foldl_append]
  rfl

/-- Of the fields that are displayed so the last failure stands. -/
theorem find?_validateFields (fields : List (FieldPath × List Rule)) (values : Json)
    (text : String) : Assoc.find? text (validateFields fields values) =
      fields.reverse.findSome? (failureUnder? values text) := by
  induction fields using List.reverseRecOn with
  | nil => rfl
  | append_singleton fields field ih =>
    obtain ⟨path, rules⟩ := field
    rw [List.reverse_append, List.reverse_singleton, List.singleton_append, List.findSome?_cons,
      ← ih, validateFields_concat, failureUnder?]
    dsimp only
    cases firstFailure? rules (values.get? path) with
    | none => rw [ite_self]
    | some message =>
      by_cases shown : path.display = text
      · rw [if_pos shown, shown, Assoc.find?_insert_self]
      · rw [if_neg shown, Assoc.find?_insert_ne shown]

theorem find?_validateFields_eq_some :
    Assoc.find? text (validateFields fields values) = some message ↔
      ∃ before field after, fields = before ++ field :: after ∧ field.1.display = text ∧
        firstFailure? field.2 (values.get? field.1) = some message ∧
        ∀ other ∈ after, other.1.display = text →
          firstFailure? other.2 (values.get? other.1) = none := by
  simp only [find?_validateFields, List.findSome?_eq_some_iff, failureUnder?_eq_some,
    failureUnder?_eq_none]
  constructor
  · rintro ⟨after, field, before, split, ⟨shown, fails⟩, pass⟩
    refine ⟨before.reverse, field, after.reverse, ?_, shown, fails, ?_⟩
    · simpa using congrArg List.reverse split
    · intro other inside
      exact pass other (List.mem_reverse.mp inside)
  · rintro ⟨before, field, after, rfl, shown, fails, pass⟩
    refine ⟨after.reverse, field, before.reverse, by simp, ⟨shown, fails⟩, ?_⟩
    intro other inside
    exact pass other (List.mem_reverse.mp inside)

theorem find?_validateFields_eq_none :
    Assoc.find? text (validateFields fields values) = none ↔
      ∀ field ∈ fields, field.1.display = text →
        firstFailure? field.2 (values.get? field.1) = none := by
  simp only [find?_validateFields, List.findSome?_eq_none_iff, failureUnder?_eq_none,
    List.mem_reverse]

theorem validateFields_sorted (fields : List (FieldPath × List Rule)) (values : Json) :
    Assoc.Sorted (validateFields fields values) := by
  induction fields using List.reverseRecOn with
  | nil => exact .nil
  | append_singleton fields field ih =>
    rw [validateFields_concat]
    split
    · exact ih.insert
    · exact ih

end Fields

/-- What rules make of values:

* more rules, wherever they are put, accept no more, and the order and the repetition of rules do not
  count for what they accept;
* the message is that of the first rule that counts for the value and fails it, where a missing value
  counts as `null`;
* fields are valid iff the rules of each accept its value. The texts with a message, each of them
  once, are those that fields are displayed by whose rules reject their value, and the message is
  that of the last of these fields. -/
theorem validation_verdict :
    (∀ rules rules' value, rules ⊆ rules' →
      firstFailure? rules value ≠ none → firstFailure? rules' value ≠ none) ∧
    (∀ rules rules' value, (∀ r, r ∈ rules ↔ r ∈ rules') →
      (firstFailure? rules value = none ↔ firstFailure? rules' value = none)) ∧
    (∀ rules value message, firstFailure? rules value = some message ↔
      Rejects rules (value.getD .null) message) ∧
    ∀ fields values,
      (validateFields fields values = [] ↔
        ∀ field ∈ fields, firstFailure? field.2 (values.get? field.1) = none) ∧
      (∀ text, text ∈ Assoc.keys (validateFields fields values) ↔
        ∃ field ∈ fields, field.1.display = text ∧
          firstFailure? field.2 (values.get? field.1) ≠ none) ∧
      (Assoc.keys (validateFields fields values)).Nodup ∧
      ∀ text message, (text, message) ∈ validateFields fields values ↔
        ∃ before field after, fields = before ++ field :: after ∧ field.1.display = text ∧
          Rejects field.2 ((values.get? field.1).getD .null) message ∧
          ∀ other ∈ after, other.1.display = text →
            firstFailure? other.2 (values.get? other.1) = none := by
  refine ⟨?_, ?_, fun _ _ _ => firstFailure?_eq_some, fun fields values => ⟨?_, ?_, ?_, ?_⟩⟩
  · intro rules rules' value sub rejects accepts
    exact rejects (accepts_of_subset sub accepts)
  · intro rules rules' value same
    constructor
    · exact accepts_of_subset fun r inside => (same r).mpr inside
    · exact accepts_of_subset fun r inside => (same r).mp inside
  · simp only [Assoc.eq_nil_iff, find?_validateFields_eq_none]
    constructor
    · intro valid field inside
      exact valid field.1.display field inside rfl
    · intro valid text field inside _
      exact valid field inside
  · intro text
    rw [Assoc.mem_keys_iff, ← Option.isSome_iff_exists, Option.isSome_iff_ne_none, Ne,
      find?_validateFields_eq_none]
    simp only [not_forall, exists_prop, ne_eq]
  · exact (validateFields_sorted fields values).distinct
  · intro text message
    simp only [← (validateFields_sorted fields values).find?_eq_some, find?_validateFields_eq_some,
      firstFailure?_eq_some]

/-- Two fields are displayed by one text, since a key may have a point in it. The one that is missing
fails, although it is required and the other, which comes behind it, is not. -/
theorem validation_verdict_shared :
    let fields : List (FieldPath × List Rule) :=
      [(⟨["a", "b"]⟩, [.required]), (⟨["a.b"]⟩, [.minLength 3])]
    let values : Json := .obj [("a", .obj []), ("a.b", .str "")]
    validateFields fields values ≠ [] ∧
    ("a.b", "This field is required") ∈ validateFields fields values ∧
    [Rule.required] ⊆ [.minLength 3, .required] ∧ firstFailure? [.required] none ≠ none ∧
    firstFailure? [.minLength 3, .required] none ≠ none := by
  intro fields values
  have rejects : firstFailure? [.required] none ≠ none := by decide
  have sub : [Rule.required] ⊆ [.minLength 3, .required] := by simp
  obtain ⟨more, -, message, verdicts⟩ := validation_verdict
  obtain ⟨valid, -, -, entries⟩ := verdicts fields values
  refine ⟨?_, ?_, sub, rejects, more _ _ _ sub rejects⟩
  · intro none
    exact rejects (valid.mp none (⟨["a", "b"]⟩, [.required]) List.mem_cons_self)
  · refine (entries _ _).mpr ⟨[], _, _, rfl, by decide, (message _ _ _).mp (by decide), ?_⟩
    intro other inside _
    rw [List.mem_singleton.mp inside]
    decide

end LiveForm
