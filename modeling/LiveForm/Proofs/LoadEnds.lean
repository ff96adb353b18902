import LiveForm.Proofs.Ledger.Course

/-!
# When loading ends

A form that loads its default values hears of them once, and then it loads no more. A loader that
fails is told of; one that panics is never heard of, and its form loads forever.

* `loading_ends`: a form that has nothing to do loads only if its loader has panicked;
* `loading_ends_not`: such a form.
-/

set_option autoImplicit false

namespace LiveForm

/-- The error a loader ends with. -/
def LoadOutcome.error? (outcome : LoadOutcome) : Option String := outcome.result?.bind loadError?

/-- When a form has no message left and nothing on the way, it has heard of its load, unless the
loader has panicked. Then it still loads. A loader that has failed has been told of once, and no
other loader has. -/
theorem loading_ends {c : FormConfig} {latency : Nat} {outcome : LoadOutcome} {now : Nat}
    {guard : UnloadGuard} {m : Moment} {log : Log} (course : Course (.opening c now guard) log m)
    (loads : c.defaults = .loaded latency outcome) (alive : m.form.alive = true)
    (mailbox : m.form.mailbox = []) (load : m.form.load = none) :
    (m.form.isLoading = true ↔ outcome = .panics) ∧
    m.form.notices = log.failures.map (Failure.notice c.catalog) ∧
    log.failures.filterMap Failure.load? = outcome.error?.toList := by
  obtain ⟨rest, heard, ahead⟩ := course.results
  have none : m.form.resultsAhead = [] := by simp [Form.resultsAhead, mailbox, load]
  have brought : c.result? = outcome.result? := by rw [FormConfig.result?, loads]
  have all : log.results = outcome.result?.toList := by
    rw [ahead alive, none, List.append_nil, brought] at heard
    exact heard
  have loading : m.form.isLoading = (c.loads && log.results.isEmpty) :=
    congrArg Ledger.loading course.ledger
  refine ⟨?_, congrArg Ledger.notices course.ledger, ?_⟩
  · rw [loading, all, FormConfig.loads, loads]
    cases outcome <;> simp [LoadOutcome.result?]
  · rw [Log.failures_load, all]
    cases outcome <;> rfl

/-- A form whose defaults take five milliseconds to load. -/
def FormConfig.loader (outcome : LoadOutcome) : FormConfig :=
  { FormConfig.sample ⟨false, none⟩ .emptyObject with defaults := .loaded 5 outcome }

/-- A loader fails while a submission is under way. -/
theorem loading_ends_told :
    ∃ log m, Course (.opening (.loader (.fails "offline")) 0 .new) log m ∧
      m.form.isLoading = false ∧ m.form.notices = [("Failed to load form values", "offline")] ∧
      log.failures.filterMap Failure.load? = ["offline"] := by
  obtain ⟨log, m, course, -, passed⟩ := Moment.course_of_test
    (.opening (.loader (.fails "offline")) 0 .new)
    [.ask 0 .submit, .handle, .startCall 0 0, .pass 5, .finishLoad, .handle, .endCall 0 0,
      .finishRun 0, .handle]
    (fun log m => m.form.alive && m.form.mailbox.isEmpty && m.form.load.isNone &&
      decide (log.failures.map (Failure.notice .english) = [("Failed to load form values", "offline")]))
    (by decide +kernel)
  simp only [Bool.and_eq_true, List.isEmpty_iff, Option.isNone_iff_eq_none, decide_eq_true_eq]
    at passed
  obtain ⟨⟨⟨alive, mailbox⟩, load⟩, failures⟩ := passed
  obtain ⟨loading, notices, told⟩ := loading_ends course rfl alive mailbox load
  have ended : m.form.isLoading ≠ true := fun still => nomatch loading.mp still
  exact ⟨log, m, course, by simpa using ended, notices.trans failures, told⟩

/-- A loader panics. Its form has nothing to do any more and still loads, and nobody is told. -/
theorem loading_ends_not :
    ∃ log m, Course (.opening (.loader .panics) 0 .new) log m ∧ m.form.alive = true ∧
      m.form.mailbox = [] ∧ m.form.runs = [] ∧ m.form.alarms = [] ∧ m.form.load = none ∧
      m.form.isLoading = true ∧ m.form.notices = [] := by
  obtain ⟨log, m, course, -, passed⟩ := Moment.course_of_test (.opening (.loader .panics) 0 .new)
    [.pass 5, .finishLoad]
    (fun _ m => m.form.alive && m.form.mailbox.isEmpty && m.form.runs.isEmpty &&
      m.form.alarms.isEmpty && m.form.load.isNone && m.form.isLoading && m.form.notices.isEmpty)
    (by decide +kernel)
  simp only [Bool.and_eq_true, List.isEmpty_iff, Option.isNone_iff_eq_none] at passed
  obtain ⟨⟨⟨⟨⟨⟨alive, mailbox⟩, runs⟩, alarms⟩, load⟩, loading⟩, notices⟩ := passed
  exact ⟨log, m, course, alive, mailbox, runs, alarms, load, loading, notices⟩

end LiveForm
