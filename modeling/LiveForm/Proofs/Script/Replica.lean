import LiveForm.Proofs.FieldPath.Grammar
import LiveForm.Proofs.Json.Tangle
import LiveForm.Script.Run

/-!
# What a script says

A script that submits by hand can be read without a form, a clock or a mailbox: it writes into a
store, and at each submit step the edits are handed over and the values become the baseline.

* `FieldPath.parse_named`: a path that can be read has a segment;
* `Replica.run?`: the plain reading of a script;
* `Replica.run?_isSome`: it has a result if the script asks for no impossible list.
-/

set_option autoImplicit false

namespace LiveForm

open Json

/-! ## Paths -/

namespace FieldPath

theorem parse_named {text : String} {p : FieldPath} (h : parse text = .ok p) : p.segments ≠ [] :=
  (parse_eq_ok.mp h).filled.1

theorem parse_of_toOption {text : String} {p : FieldPath} (h : (parse text).toOption = some p) :
    parse text = .ok p := by
  cases read : parse text with
  | error e => simp [read, Except.toOption] at h
  | ok q => simpa [read, Except.toOption] using h

end FieldPath

/-! ## The plain reading -/

/-- How far a script has been read: the store, what was submitted, how often, and whether the last
submission has succeeded. -/
structure Replica where
  store : Store
  submissions : List Json
  submits : Nat
  succeeded : Bool

namespace Replica

/-- The edits are handed over, and if there are any the values become the baseline. A submission
that fails is counted, and that is all. -/
def submit (r : Replica) (fails : Bool) : Replica :=
  if fails then { r with submits := r.submits + 1, succeeded := false }
  else
    { store := if r.store.isDirty then .reset r.store.values else r.store
      submissions := r.submissions ++ [r.store.dirtyValues]
      submits := r.submits + 1
      succeeded := true }

/-- The number of the submission made last. -/
def last? (r : Replica) : Option Nat :=
  match r.submits with
  | 0 => none
  | n + 1 => some (n + 1)

/-- What is seen of a form at rest. -/
def snapshot (r : Replica) (showLoader : Bool) : Snapshot where
  phase := .idle
  isDirty := r.store.isDirty
  isSubmitting := false
  isSubmitSuccessful := r.succeeded
  isLoading := false
  showLoader
  submitCount := UInt32.ofNat r.submits
  dirtyPaths := r.store.dirty.paths.map FieldPath.display
  errors := []
  lastSubmissionId := r.last?.map submissionId

/-- One step. There is no result if a path cannot be read, or a write asks for an impossible list. -/
def step? (r : Replica) (fails : Bool) : ScriptStep → Option Replica
  | .set text value =>
    (FieldPath.parse text).toOption.bind fun path =>
      (r.store.set? path value true).map fun store => { r with store }
  | .sleep _ => some r
  | .submit => some (r.submit fails)

def run? (r : Replica) (fails : Bool) : List ScriptStep → Option Replica
  | [] => some r
  | x :: rest => (r.step? fails x).bind fun r => r.run? fails rest

end Replica

namespace ScriptStep

/-- Holds unless a write cannot be read, or names the last index of a list. -/
def isClear : ScriptStep → Bool
  | .set text _ => (FieldPath.parse text).toOption.any fun path =>
      path.segments.all fun s => FieldPath.index? s ≠ some FieldPath.lastIndex
  | _ => true

def isSubmit : ScriptStep → Bool
  | .submit => true
  | _ => false

end ScriptStep

namespace Script

/-- Where the reading of a script starts. -/
def start (s : Script) : Replica := ⟨.new s.defaults, [], 0, false⟩

/-- A script read from its start to its end. -/
def replica? (s : Script) : Option Replica := s.start.run? s.failSubmit s.steps

/-- How many submit steps there are. -/
def submits (s : Script) : Nat := s.steps.countP ScriptStep.isSubmit

end Script

namespace Store

variable {s s' : Store}

theorem set?_object {p : FieldPath} {v : Json} {dirty : Bool}
    (object : s.values.kind? = some .object) (h : s.set? p v dirty = some s') :
    s'.values.kind? = some .object := by
  obtain ⟨values, written, rfl⟩ := Option.map_eq_some_iff.mp h
  exact write?_object object written

theorem set?_isSome {p : FieldPath} (object : s.values.kind? = some .object)
    (named : p.segments ≠ [])
    (room : ∀ x ∈ p.segments, FieldPath.index? x ≠ some FieldPath.lastIndex) (v : Json)
    (dirty : Bool) : ∃ s', s.set? p v dirty = some s' := by
  obtain ⟨values, written⟩ := graft?_isSome (o := some s.values) v room
  rw [← set?_eq_graft? object named] at written
  exact ⟨_, Option.map_eq_some_iff.mpr ⟨values, written, rfl⟩⟩

end Store

namespace Replica

variable {r r' : Replica} {fails : Bool}

theorem submit_object (object : r.store.values.kind? = some .object) :
    (r.submit fails).store.values.kind? = some .object := by
  unfold submit
  split
  · exact object
  · dsimp only
    split
    · exact Store.rooted_object _
    · exact object

theorem step?_object {x : ScriptStep} (object : r.store.values.kind? = some .object)
    (h : r.step? fails x = some r') : r'.store.values.kind? = some .object := by
  cases x with
  | set text value =>
    obtain ⟨path, -, h⟩ := Option.bind_eq_some_iff.mp h
    obtain ⟨store, written, rfl⟩ := Option.map_eq_some_iff.mp h
    exact Store.set?_object object written
  | sleep ms =>
    cases h
    exact object
  | submit =>
    cases h
    exact submit_object object

theorem step?_isSome {x : ScriptStep} (object : r.store.values.kind? = some .object)
    (clear : x.isClear = true) : ∃ r', r.step? fails x = some r' := by
  cases x with
  | set text value =>
    simp only [ScriptStep.isClear, Option.any_eq_true, List.all_eq_true, decide_eq_true_eq] at clear
    obtain ⟨path, read, room⟩ := clear
    obtain ⟨store, written⟩ :=
      Store.set?_isSome object (FieldPath.parse_named (FieldPath.parse_of_toOption read)) room value true
    exact ⟨{ r with store }, by simp [step?, read, written]⟩
  | sleep ms => exact ⟨r, rfl⟩
  | submit => exact ⟨_, rfl⟩

theorem run?_isSome {steps : List ScriptStep} (object : r.store.values.kind? = some .object)
    (clear : steps.all ScriptStep.isClear = true) : ∃ r', r.run? fails steps = some r' := by
  induction steps generalizing r with
  | nil => exact ⟨r, rfl⟩
  | cons x rest ih =>
    obtain ⟨here, others⟩ := Bool.and_eq_true_iff.mp (List.all_cons ▸ clear)
    obtain ⟨next, first⟩ : ∃ next, r.step? fails x = some next := step?_isSome object here
    obtain ⟨r', last⟩ := ih (step?_object object first) others
    exact ⟨r', Option.bind_eq_some_iff.mpr ⟨next, first, last⟩⟩

/-- The number of submissions, and whether the last one has succeeded. -/
structure Counts (fails : Bool) (r : Replica) (n : Nat) : Prop where
  submits : r.submits = n
  succeeded : r.succeeded = (decide (0 < n) && !fails)

theorem step?_counts {x : ScriptStep} {n : Nat} (counts : r.Counts fails n)
    (h : r.step? fails x = some r') : r'.Counts fails (n + x.isSubmit.toNat) := by
  cases x with
  | set text value =>
    obtain ⟨path, -, h⟩ := Option.bind_eq_some_iff.mp h
    obtain ⟨store, written, rfl⟩ := Option.map_eq_some_iff.mp h
    exact ⟨counts.submits, counts.succeeded⟩
  | sleep ms =>
    cases h
    exact counts
  | submit =>
    cases h
    have submits : (r.submit fails).submits = n + 1 := by
      unfold submit
      split <;> exact congrArg (· + 1) counts.submits
    refine ⟨submits, ?_⟩
    cases fails <;> simp [submit, ScriptStep.isSubmit]

theorem run?_counts {steps : List ScriptStep} {n : Nat} (counts : r.Counts fails n)
    (h : r.run? fails steps = some r') : r'.Counts fails (n + steps.countP ScriptStep.isSubmit) := by
  induction steps generalizing r n with
  | nil =>
    cases h
    exact counts
  | cons x rest ih =>
    obtain ⟨next, first, others⟩ := Option.bind_eq_some_iff.mp h
    have all := ih (step?_counts counts first) others
    rw [List.countP_cons]
    cases submits : x.isSubmit <;> simp [submits] at all ⊢
    · exact all
    · rwa [Nat.add_assoc, Nat.add_comm 1] at all

end Replica

end LiveForm
