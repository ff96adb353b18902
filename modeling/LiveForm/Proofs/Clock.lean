import LiveForm.Proofs.Course

/-!
# The clock of a course

Time passes in deeds of its own, and in a course it may pass while a timer is overdue.

* `Moment.perform?_pass`, `perform?_time`: how a deed moves the clock;
* `Moment.Waits`: the form has nothing to handle, and none of its own timers comes due before the
  clock has moved so far;
* `Log.Punctual`: the clock moves only when that is so.
-/

set_option autoImplicit false

namespace LiveForm

/-- The clock may move so far: no message waits, and no timer of the form comes due meanwhile. -/
structure Moment.Waits (m : Moment) (ms : Nat) : Prop where
  unheard : m.form.mailbox = []
  debounce : ∀ t, m.form.debounce.timer = some t → m.now + ms ≤ t.due
  hide : ∀ t, m.form.loader.hideTimer = some t → m.now + ms ≤ t.due

instance (m : Moment) (ms : Nat) : Decidable (m.Waits ms) :=
  decidable_of_iff (m.form.mailbox.isEmpty = true ∧
      (∀ t ∈ m.form.debounce.timer, m.now + ms ≤ t.due) ∧
      ∀ t ∈ m.form.loader.hideTimer, m.now + ms ≤ t.due)
    ⟨fun ⟨unheard, debounce, hide⟩ => ⟨List.isEmpty_iff.mp unheard, debounce, hide⟩,
      fun ⟨unheard, debounce, hide⟩ => ⟨List.isEmpty_iff.mpr unheard, debounce, hide⟩⟩

/-- For how long a deed lets time pass. -/
def Deed.pass? : Deed → Option Nat
  | .pass ms => some ms
  | _ => none

/-- Time passes only while the form waits. -/
def Log.Punctual (log : Log) : Prop := ∀ x ∈ log, ∀ ms, x.2.pass? = some ms → x.1.Waits ms

instance (log : Log) : Decidable log.Punctual :=
  inferInstanceAs (Decidable (∀ x ∈ log, ∀ ms ∈ x.2.pass?, x.1.Waits ms))

namespace Moment

variable {a b : Moment} {d : Deed} {ms : Nat}

theorem perform?_pass (h : a.perform? (.pass ms) = some b) : b = { a with now := a.now + ms } :=
  (Option.some.inj h).symm

/-- Other deeds take no time. -/
theorem perform?_time (h : a.perform? d = some b) (other : ∀ ms, d ≠ .pass ms) : b.now = a.now := by
  cases d with
  | pass ms => exact absurd rfl (other ms)
  | change | stop | share =>
    cases h
    rfl
  | ask | close | straggle =>
    simp only [perform?, Option.ite_none_right_eq_some, Option.some.injEq] at h
    obtain ⟨_, rfl⟩ := h
    rfl
  | handle | startCall | endCall | finishRun | fireDebounce | fireHide | finishLoad =>
    simp only [perform?, Option.map_eq_some_iff] at h
    obtain ⟨_, _, rfl⟩ := h
    rfl

theorem perform?_later (h : a.perform? d = some b) : a.now ≤ b.now := by
  by_cases passes : ∃ ms, d = .pass ms
  · obtain ⟨ms, rfl⟩ := passes
    rw [perform?_pass h]
    exact Nat.le_add_right _ _
  · exact Nat.le_of_eq (perform?_time h fun ms eq => passes ⟨ms, eq⟩).symm

end Moment

/-- What has been done was done before. -/
theorem Course.until {a m : Moment} {log : Log} (course : Course a log m) :
    ∀ x ∈ log, x.1.now ≤ m.now := by
  induction course with
  | here => simp
  | next _ done ih =>
    have later := Moment.perform?_later done
    exact List.forall_mem_cons.mpr ⟨later, fun x among => Nat.le_trans (ih x among) later⟩

theorem Log.Punctual.head {log : Log} {a : Moment} {ms : Nat}
    (h : Log.Punctual ((a, .pass ms) :: log)) : a.Waits ms :=
  h _ List.mem_cons_self ms rfl

end LiveForm
