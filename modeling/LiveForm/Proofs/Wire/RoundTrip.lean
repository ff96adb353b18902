import LiveForm.Proofs.Wire.Faithful
import LiveForm.Script.Basic

/-!
# What is written out is read again

Settings, states, submissions and scripts each have a form in JSON. The lemmas about a type say
which fields its written form gives to the reader, and the instance of `Faithful` follows from them.

* `Wire.RoundTrips`: a value in order is read again as it was written, from a tree at hand or from
  the tree of a text, and what was read in any of the accepted forms is read again once it is written
  out;
* `Wire.all_roundTrip`: that is so of all types that a form shares with others, and of scripts.

Both ways are between values and trees. How a text is parsed to its tree, with the spelling of numbers
and the limit on nesting, is not covered here.
-/

set_option autoImplicit false

namespace LiveForm.Wire

variable {m : Medium}

section Names

theorem unitName?_str {name : String} : unitName? (m.layOut (.str name)) = some name := by
  cases m <;> rfl

instance : Arranged FormPhase := ⟨fun _ => True⟩
instance : Arranged Trigger := ⟨fun _ => True⟩

@[simp] theorem inOrder_phase (p : FormPhase) : InOrder p := trivial
@[simp] theorem inOrder_trigger (t : Trigger) : InOrder t := trivial

instance : Faithful FormPhase where
  decode?_write {p m m'} _ := by
    have name : unitName? (write m p) = some p.name := unitName?_str
    simp only [decode?, name]
    cases p <;> rfl
  inOrder_of_decode? _ _ := trivial
  inOrder_absent := nofun

instance : Faithful Trigger where
  decode?_write {t m m'} _ := by
    have name : unitName? (write m t) = some (triggerName t) := unitName?_str
    simp only [decode?, name]
    cases t <;> rfl
  inOrder_of_decode? _ _ := trivial
  inOrder_absent := nofun

end Names

section Settings

instance : Arranged AutoSubmitConfig := ⟨fun _ => True⟩
instance : Arranged AutoSubmit := ⟨fun _ => True⟩

@[simp] theorem inOrder_autoSubmit (a : AutoSubmit) : InOrder a := trivial

theorem slots?_config {c : AutoSubmitConfig} :
    slots? ["enable", "wait"] (write m c) =
      some ([encode c.enable, encode c.wait].map fun j => .given (m.layOut j)) :=
  slots?_record rfl (by decide)

instance : Faithful AutoSubmitConfig where
  decode?_write _ := by
    simp only [decode?]
    rw [slots?_config]
    simp [Slot.read_write]
  inOrder_of_decode? _ _ := trivial
  inOrder_absent := nofun

theorem memberSlots?_config {enable : Bool} {wait : Option UInt64} :
    memberSlots? ["enable", "wait"] (write m (AutoSubmit.config enable wait)) =
      some ([encode enable, encode wait].map fun j => .given (m.layOut j)) :=
  memberSlots?_record rfl (by decide)

instance : Faithful AutoSubmit where
  decode?_write {a m m'} _ := by
    cases a with
    | toggle on => cases m <;> rfl
    | config enable wait =>
      simp only [decode?]
      split
      · cases m <;> contradiction
      · rw [memberSlots?_config]
        simp [Slot.read_write]
  inOrder_of_decode? _ _ := trivial
  inOrder_absent := nofun

end Settings

section States

instance : Arranged Snapshot := ⟨fun s => InOrder s.errors⟩
instance : Arranged SubmitButton := ⟨fun _ => True⟩

theorem slots?_snapshot {s : Snapshot} :
    slots? ["phase", "is_dirty", "is_submitting", "is_submit_successful", "is_loading",
        "show_loader", "submit_count", "dirty_paths", "errors", "last_submission_id"] (write m s) =
      some ([encode s.phase, encode s.isDirty, encode s.isSubmitting, encode s.isSubmitSuccessful,
        encode s.isLoading, encode s.showLoader, encode s.submitCount, encode s.dirtyPaths,
        encode s.errors, encode s.lastSubmissionId].map fun j => .given (m.layOut j)) :=
  slots?_record rfl (by decide)

instance : Faithful Snapshot where
  decode?_write {s m m'} h := by
    have errors : InOrder s.errors := h
    simp only [decode?]
    rw [slots?_snapshot]
    simp [Slot.read_write, Slot.read_write errors]
  inOrder_of_decode? {m j s} h read := by
    simp only [decode?] at read
    split at read
    · rename_i fields
      simp only [Option.bind_eq_bind, Option.bind_eq_some_iff] at read
      obtain ⟨_, -, _, -, _, -, _, -, _, -, _, -, _, -, _, -, _, errors, _, -, made⟩ := read
      cases made
      have errorsInOrder := (holds_of_slots? h fields _ (by simp)).inOrder errors
      exact errorsInOrder
    · cases read
  inOrder_absent := nofun

theorem slots?_button {b : SubmitButton} : slots? ["visible", "enabled", "label"] (write m b) =
    some ([encode b.visible, encode b.enabled, encode b.label].map fun j => .given (m.layOut j)) :=
  slots?_record rfl (by decide)

instance : Faithful SubmitButton where
  decode?_write _ := by
    simp only [decode?]
    rw [slots?_button]
    simp [Slot.read_write]
  inOrder_of_decode? _ _ := trivial
  inOrder_absent := nofun

end States

section Submissions

instance : Arranged SubmitData := ⟨fun d => InOrder d.values ∧ InOrder d.dirtyValues⟩

instance : Arranged SubmitOutcome where
  InOrder
    | .submitted _ dirty => InOrder dirty
    | .invalid errors => InOrder errors
    | .rejected _ _ => True

theorem slots?_data {d : SubmitData} :
    slots? ["submission_id", "values", "dirty_values", "trigger"] (write m d) =
      some ([encode d.submissionId, encode d.values, encode d.dirtyValues, encode d.trigger].map
        fun j => .given (m.layOut j)) :=
  slots?_record rfl (by decide)

instance : Faithful SubmitData where
  decode?_write {d m m'} h := by
    obtain ⟨values, dirty⟩ := h
    simp only [decode?]
    rw [slots?_data]
    simp [Slot.read_write, Slot.read_write values, Slot.read_write dirty]
  inOrder_of_decode? {m j d} h read := by
    simp only [decode?] at read
    split at read
    · rename_i fields
      simp only [Option.bind_eq_bind, Option.bind_eq_some_iff] at read
      obtain ⟨_, -, _, values, _, dirty, _, -, made⟩ := read
      cases made
      have holds := holds_of_slots? h fields
      exact ⟨(holds _ (by simp)).inOrder values, (holds _ (by simp)).inOrder dirty⟩
    · cases read
  inOrder_absent := nofun

theorem tagged?_submitted (id : String) (dirty : Json) :
    let written := write m (SubmitOutcome.submitted id dirty)
    tagged? "status" written = some ("submitted", written) ∧
      slots? ["submission_id", "dirty_values"] written =
        some ([encode id, encode dirty].map fun j => .given (m.layOut j)) :=
  tagged?_record rfl (by decide)

theorem tagged?_invalid (errors : FieldErrors) :
    let written := write m (SubmitOutcome.invalid errors)
    tagged? "status" written = some ("invalid", written) ∧
      slots? ["errors"] written = some ([encode errors].map fun j => .given (m.layOut j)) :=
  tagged?_record rfl (by decide)

theorem tagged?_rejected (id message : String) :
    let written := write m (SubmitOutcome.rejected id message)
    tagged? "status" written = some ("rejected", written) ∧
      slots? ["submission_id", "message"] written =
        some ([encode id, encode message].map fun j => .given (m.layOut j)) :=
  tagged?_record rfl (by decide)

instance : Faithful SubmitOutcome where
  decode?_write {o m m'} h := by
    simp only [decode?]
    cases o with
    | submitted id dirty =>
      have dirtyInOrder : InOrder dirty := h
      obtain ⟨tag, fields⟩ := tagged?_submitted (m := m) id dirty
      simp [tag, fields, Slot.read_write, Slot.read_write dirtyInOrder]
    | invalid errors =>
      have errorsInOrder : InOrder errors := h
      obtain ⟨tag, fields⟩ := tagged?_invalid (m := m) errors
      simp [tag, fields, Slot.read_write errorsInOrder]
    | rejected id message =>
      obtain ⟨tag, fields⟩ := tagged?_rejected (m := m) id message
      simp [tag, fields, Slot.read_write]
  inOrder_of_decode? {m j o} h read := by
    simp only [decode?] at read
    split at read
    · rename_i tag
      split at read
      · rename_i fields
        simp only [Option.bind_eq_bind, Option.bind_eq_some_iff] at read
        obtain ⟨_, -, _, dirty, made⟩ := read
        cases made
        have holds := holds_of_slots? (holds_of_tagged? h tag) fields
        have dirtyInOrder := (holds _ (by simp)).inOrder dirty
        exact dirtyInOrder
      · cases read
    · rename_i tag
      split at read
      · rename_i fields
        simp only [Option.bind_eq_bind, Option.bind_eq_some_iff] at read
        obtain ⟨_, errors, made⟩ := read
        cases made
        have holds := holds_of_slots? (holds_of_tagged? h tag) fields
        have errorsInOrder := (holds _ (by simp)).inOrder errors
        exact errorsInOrder
      · cases read
    · split at read
      · simp only [Option.bind_eq_bind, Option.bind_eq_some_iff] at read
        obtain ⟨_, -, _, -, made⟩ := read
        cases made
        trivial
      · cases read
    · cases read
  inOrder_absent := nofun

end Submissions

section Scripts

instance : Arranged ScriptStep where
  InOrder
    | .set _ value => InOrder value
    | _ => True

instance : Arranged Script := ⟨fun s => InOrder s.defaults ∧ InOrder s.steps⟩

instance : Arranged ScriptReport :=
  ⟨fun r => InOrder r.state ∧ InOrder r.values ∧ InOrder r.submissions⟩

theorem writeSlots?_set {path : String} {value : Json} {m' : Medium} :
    writeSlots? m' (m.layOut (record [("path", encode path), ("value", encode value)])) =
      some ([encode path, encode value].map fun j => .given (m.layOut j)) := by
  have members : memberSlots? ["path", "value"]
      (m.layOut (record [("path", encode path), ("value", encode value)])) =
        some ([encode path, encode value].map fun j => .given (m.layOut j)) :=
    memberSlots?_record rfl (by decide)
  cases m' with
  | tree => exact members
  | text => exact slots?_eq_memberSlots? members

theorem holds_of_writeSlots? {j : Json} {slots : List Slot} (h : m.Holds j)
    (read : writeSlots? m j = some slots) : ∀ slot ∈ slots, slot.Holds m := by
  cases m with
  | tree => exact holds_of_memberSlots? h read
  | text => exact holds_of_slots? h read

instance : Faithful ScriptStep where
  decode?_write {s m m'} h := by
    cases s with
    | set path value =>
      have valueInOrder : InOrder value := h
      have written : write m (ScriptStep.set path value) =
          .obj [("set", m.layOut (record [("path", encode path), ("value", encode value)]))] :=
        Medium.layOut_member
      rw [written]
      simp only [decode?]
      rw [writeSlots?_set]
      simp [Slot.read_write, Slot.read_write valueInOrder]
    | sleep ms =>
      have written : write m (ScriptStep.sleep ms) = .obj [("sleep_ms", write m ms)] :=
        Medium.layOut_member
      have read : decode? m' (write m ms) = some ms := Faithful.decode?_write trivial
      rw [written]
      simp only [decode?] at read ⊢
      rw [read]
      rfl
    | submit => cases m <;> rfl
  inOrder_of_decode? {m j s} h read := by
    simp only [decode?] at read
    split at read
    · split at read
      · rename_i fields
        simp only [Option.bind_eq_bind, Option.bind_eq_some_iff] at read
        obtain ⟨_, -, _, value, made⟩ := read
        cases made
        have holds := holds_of_writeSlots? (h.member _ List.mem_cons_self) fields
        have valueInOrder := (holds _ (by simp)).inOrder value
        exact valueInOrder
      · cases read
    · simp only [Option.bind_eq_bind, Option.bind_eq_some_iff] at read
      obtain ⟨_, -, made⟩ := read
      cases made
      trivial
    · split at read
      · cases read
        trivial
      · cases read
  inOrder_absent := nofun

theorem slots?_script {s : Script} :
    slots? ["defaults", "auto_submit", "fail_submit", "latency_ms", "steps"] (write m s) =
      some ([encode s.defaults, encode s.autoSubmit, encode s.failSubmit, encode s.latency,
        encode s.steps].map fun j => .given (m.layOut j)) :=
  slots?_record rfl (by decide)

instance : Faithful Script where
  decode?_write {s m m'} h := by
    obtain ⟨defaults, steps⟩ := h
    simp only [decode?]
    rw [slots?_script]
    simp [Slot.readOr_write, Slot.readOr_write defaults, Slot.readOr_write steps]
  inOrder_of_decode? {m j s} h read := by
    simp only [decode?] at read
    split at read
    · rename_i fields
      simp only [Option.bind_eq_bind, Option.bind_eq_some_iff] at read
      obtain ⟨_, defaults, _, -, _, -, _, -, _, steps, made⟩ := read
      cases made
      have holds := holds_of_slots? h fields
      exact ⟨(holds _ (by simp)).inOrder_or rfl defaults,
        (holds _ (by simp)).inOrder_or (by simp) steps⟩
    · cases read
  inOrder_absent := nofun

theorem slots?_report {r : ScriptReport} : slots? ["state", "values", "submissions"] (write m r) =
    some ([encode r.state, encode r.values, encode r.submissions].map
      fun j => .given (m.layOut j)) :=
  slots?_record rfl (by decide)

instance : Faithful ScriptReport where
  decode?_write {r m m'} h := by
    obtain ⟨state, values, submissions⟩ := h
    simp only [decode?]
    rw [slots?_report]
    simp [Slot.read_write state, Slot.read_write values, Slot.read_write submissions]
  inOrder_of_decode? {m j r} h read := by
    simp only [decode?] at read
    split at read
    · rename_i fields
      simp only [Option.bind_eq_bind, Option.bind_eq_some_iff] at read
      obtain ⟨_, state, _, values, _, submissions, made⟩ := read
      cases made
      have holds := holds_of_slots? h fields
      exact ⟨(holds _ (by simp)).inOrder state, (holds _ (by simp)).inOrder values,
        (holds _ (by simp)).inOrder submissions⟩
    · cases read
  inOrder_absent := nofun

end Scripts

/-- Values keep through being written and read. The value may be one at hand, or one that was read
from a form that is not the written one: a list of fields, a record with fields left out or with
members it does not know, an object for the name of an alternative. Of a text this
speaks only as far as its tree: that numbers are spelled so that they are read as they were, and that
nothing is nested too deep to be read, is left out. -/
structure RoundTrips (α : Type) [Wire α] [Arranged α] : Prop where
  again : ∀ {x : α}, InOrder x → ∀ m m' : Medium, decode? m' (write m x) = some x
  reread : ∀ {m : Medium} {j : Json} {x : α}, m.Holds j → decode? m j = some x →
    InOrder x ∧ ∀ m' m'' : Medium, decode? m'' (write m' x) = some x

theorem Faithful.roundTrips {α : Type} [Wire α] [Arranged α] [Faithful α] : RoundTrips α where
  again h _ _ := Faithful.decode?_write h
  reread h read := by
    have inOrder := Faithful.inOrder_of_decode? h read
    exact ⟨inOrder, fun _ _ => Faithful.decode?_write inOrder⟩

/-- Settings, states, submissions and scripts are read again as they were written, whatever they were
written to and are read from. What was read in any of the accepted forms is in order, so it keeps too
from then on. -/
theorem all_roundTrip :
    RoundTrips AutoSubmit ∧ RoundTrips AutoSubmitConfig ∧ RoundTrips FormPhase ∧
      RoundTrips Snapshot ∧ RoundTrips SubmitButton ∧ RoundTrips SubmitOutcome ∧
      RoundTrips Trigger ∧ RoundTrips SubmitData ∧ RoundTrips Script ∧ RoundTrips ScriptStep ∧
      RoundTrips ScriptReport :=
  ⟨Faithful.roundTrips, Faithful.roundTrips, Faithful.roundTrips, Faithful.roundTrips,
    Faithful.roundTrips, Faithful.roundTrips, Faithful.roundTrips, Faithful.roundTrips,
    Faithful.roundTrips, Faithful.roundTrips, Faithful.roundTrips⟩

/-- A write given as a list, in a text that has one key of its value twice, is written out as a
record. -/
theorem all_roundTrip_set :
    let twice := Json.obj [("z", .null), ("b", .int 1), ("z", .int 2)]
    let list := Json.obj [("set", .arr [.str "a", twice])]
    let value := Json.obj [("b", .int 1), ("z", .int 2)]
    decode? .text list = some (ScriptStep.set "a" value) ∧
      write .text (ScriptStep.set "a" value) =
        .obj [("set", .obj [("path", .str "a"), ("value", value)])] ∧
      decode? .tree (write .text (ScriptStep.set "a" value)) = some (ScriptStep.set "a" value) := by
  intro twice list value
  have read : decode? .text list = some (ScriptStep.set "a" value) := rfl
  obtain ⟨-, -, -, -, -, -, -, -, -, steps, -⟩ := all_roundTrip
  exact ⟨read, rfl, (steps.reread (m := .text) nofun read).2 .text .tree⟩

end LiveForm.Wire
