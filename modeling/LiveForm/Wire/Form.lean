import LiveForm.Settings
import LiveForm.Snapshot
import LiveForm.Submission
import LiveForm.Wire.Basic

/-!
The JSON forms of what a form shares with others: its settings, its state and its submissions.
-/

set_option autoImplicit false

namespace LiveForm.Wire

instance : Wire AutoSubmitConfig where
  encode c := record [("enable", encode c.enable), ("wait", encode c.wait)]
  decode? m j :=
    match slots? ["enable", "wait"] j with
    | some [enable, wait] => do return ⟨← enable.read m, ← wait.read m⟩
    | _ => none

/-- A switch, or an object; never a list. -/
instance : Wire AutoSubmit where
  encode
    | .toggle on => encode on
    | .config enable wait => record [("enable", encode enable), ("wait", encode wait)]
  decode? m
    | .bool on => some (.toggle on)
    | j =>
      match memberSlots? ["enable", "wait"] j with
      | some [enable, wait] => do return .config (← enable.read m) (← wait.read m)
      | _ => none

instance : Wire FormPhase where
  encode p := .str p.name
  decode? _ j :=
    (unitName? j).bind fun name =>
      [.idle, .scheduled, .submitting, .settledOk, .settledError].find? fun p : FormPhase =>
        p.name = name

def triggerName : Trigger → String
  | .auto => "auto"
  | .manual => "manual"

instance : Wire Trigger where
  encode t := .str (triggerName t)
  decode? _ j :=
    (unitName? j).bind fun name => [.auto, .manual].find? fun t => triggerName t = name

instance : Wire Snapshot where
  encode s := record [
    ("phase", encode s.phase),
    ("is_dirty", encode s.isDirty),
    ("is_submitting", encode s.isSubmitting),
    ("is_submit_successful", encode s.isSubmitSuccessful),
    ("is_loading", encode s.isLoading),
    ("show_loader", encode s.showLoader),
    ("submit_count", encode s.submitCount),
    ("dirty_paths", encode s.dirtyPaths),
    ("errors", encode s.errors),
    ("last_submission_id", encode s.lastSubmissionId)]
  decode? m j :=
    match slots? ["phase", "is_dirty", "is_submitting", "is_submit_successful", "is_loading",
        "show_loader", "submit_count", "dirty_paths", "errors", "last_submission_id"] j with
    | some [phase, dirty, submitting, successful, loading, loader, count, paths, errors, last] => do
      return {
        phase := ← phase.read m
        isDirty := ← dirty.read m
        isSubmitting := ← submitting.read m
        isSubmitSuccessful := ← successful.read m
        isLoading := ← loading.read m
        showLoader := ← loader.read m
        submitCount := ← count.read m
        dirtyPaths := ← paths.read m
        errors := ← errors.read m
        lastSubmissionId := ← last.read m }
    | _ => none

instance : Wire SubmitButton where
  encode b := record [
    ("visible", encode b.visible), ("enabled", encode b.enabled), ("label", encode b.label)]
  decode? m j :=
    match slots? ["visible", "enabled", "label"] j with
    | some [visible, enabled, label] => do
      return ⟨← visible.read m, ← enabled.read m, ← label.read m⟩
    | _ => none

instance : Wire SubmitData where
  encode d := record [
    ("submission_id", encode d.submissionId), ("values", d.values),
    ("dirty_values", d.dirtyValues), ("trigger", encode d.trigger)]
  decode? m j :=
    match slots? ["submission_id", "values", "dirty_values", "trigger"] j with
    | some [id, values, dirty, trigger] => do
      return ⟨← id.read m, ← values.read m, ← dirty.read m, ← trigger.read m⟩
    | _ => none

/-- The status tells the alternatives apart. -/
instance : Wire SubmitOutcome where
  encode
    | .submitted id dirty => record [
        ("status", .str "submitted"), ("submission_id", encode id), ("dirty_values", dirty)]
    | .invalid errors => record [("status", .str "invalid"), ("errors", encode errors)]
    | .rejected id message => record [
        ("status", .str "rejected"), ("submission_id", encode id), ("message", encode message)]
  decode? m j :=
    match tagged? "status" j with
    | some ("submitted", fields) =>
      match slots? ["submission_id", "dirty_values"] fields with
      | some [id, dirty] => do return .submitted (← id.read m) (← dirty.read m)
      | _ => none
    | some ("invalid", fields) =>
      match slots? ["errors"] fields with
      | some [errors] => do return .invalid (← errors.read m)
      | _ => none
    | some ("rejected", fields) =>
      match slots? ["submission_id", "message"] fields with
      | some [id, message] => do return .rejected (← id.read m) (← message.read m)
      | _ => none
    | _ => none

end LiveForm.Wire
