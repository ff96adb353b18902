import Mathlib.Algebra.Order.BigOperators.Group.List
import Mathlib.Algebra.Order.Group.Nat
import LiveForm.Proofs.Work

/-!
# A form comes to rest

The loop of a form runs for so many steps as the form has work. That is enough: what is left then
comes due only later.

* `Form.Dozes`: a form has nothing to do but wait for its alarms;
* `Scene.tick?_eq_none`: the loop has nothing to do when the form dozes and no alarm is due;
* `Form.steps_fair`: each step lowers the work, whatever comes of it;
* `Form.alarms_fair`: no step raises the number of alarms ahead, and to wake a form lowers it;
* `Scene.settle_rests`: nothing is left when the loop has ended.
-/

set_option autoImplicit false

namespace LiveForm

/-! ## What is left to do -/

/-- There is nothing to do until something comes due. -/
structure Form.Dozes (f : Form) : Prop where
  running : f.stopRequested = false
  mailbox : f.mailbox = []
  started : ∀ r ∈ f.runs, r.isFresh = false
  unfinished : ∀ r ∈ f.runs, r.isFinished = false

/-- No alarm goes off before a time, or at it. -/
def Form.SleepsUntil (f : Form) (now : Nat) : Prop := ∀ t ∈ f.alarms, now < t

theorem Form.startFirst?_eq_none {now : Nat} {runs : List Run} :
    startFirst? now runs = none ↔ ∀ r ∈ runs, r.isFresh = false := by
  induction runs with
  | nil => simp [startFirst?]
  | cons r rest ih =>
    cases fresh : r.isFresh with
    | true => simp [startFirst?, fresh]
    | false => simp [startFirst?, fresh, ih]

theorem Form.finishFirst?_eq_none {runs : List Run} :
    finishFirst? runs = none ↔ ∀ r ∈ runs, r.isFinished = false := by
  induction runs with
  | nil => simp [finishFirst?]
  | cons r rest ih =>
    cases finished : r.isFinished with
    | true => simp [finishFirst?, finished]
    | false => simp [finishFirst?, finished, ih]

theorem Run.endFirst?_eq_none {now : Nat} {calls : List Call} :
    endFirst? now calls = none ↔ ∀ c ∈ calls, c.isDue now = false := by
  induction calls with
  | nil => simp [endFirst?]
  | cons c rest ih =>
    cases due : c.isDue now with
    | true => simp [endFirst?, due]
    | false => simp [endFirst?, due, ih]

theorem Form.endFirst?_eq_none {now : Nat} {runs : List Run} :
    endFirst? now runs = none ↔ ∀ r ∈ runs, ∀ c ∈ r.calls, c.isDue now = false := by
  induction runs with
  | nil => simp [endFirst?]
  | cons r rest ih =>
    rw [List.forall_mem_cons, ← ih, ← Run.endFirst?_eq_none]
    cases first : Run.endFirst? now r.calls with
    | none => simp [endFirst?, Run.endCall?, first]
    | some found => simp [endFirst?, Run.endCall?, first]

/-- The alarms of a form, one kind after the other. -/
theorem Form.sleepsUntil_iff {f : Form} {now : Nat} : f.SleepsUntil now ↔
    (∀ t, f.debounce.timer = some t → now < t.due) ∧
    (∀ t, f.loader.hideTimer = some t → now < t.due) ∧ (∀ l, f.load = some l → now < l.due) ∧
    ∀ r ∈ f.runs, ∀ c ∈ r.calls, c.isDue now = false := by
  simp only [SleepsUntil, alarms, List.mem_append, Option.mem_toList, Option.map_eq_some_iff,
    List.mem_flatMap, List.mem_filterMap, Call.isDue, Option.any_eq_false, decide_eq_false_iff_not,
    Nat.not_le]
  constructor
  · intro sleeps
    refine ⟨fun t set => sleeps _ (.inl (.inl (.inl ⟨t, set, rfl⟩))),
      fun t set => sleeps _ (.inl (.inl (.inr ⟨t, set, rfl⟩))),
      fun l set => sleeps _ (.inl (.inr ⟨l, set, rfl⟩)), fun r run c call t due => ?_⟩
    simpa using sleeps t (.inr ⟨r, run, c, call, due⟩)
  · rintro ⟨debounce, hide, load, calls⟩ t (((⟨x, set, rfl⟩ | ⟨x, set, rfl⟩) | ⟨l, set, rfl⟩) |
      ⟨r, run, c, call, due⟩)
    · exact debounce x set
    · exact hide x set
    · exact load l set
    · simpa using calls r run c call t due

namespace Scene

variable {s s' : Scene} {now n k : Nat}

theorem handleNext?_eq_none : s.handleNext? now = none ↔ s.form.mailbox = [] := by
  unfold handleNext?
  cases s.form.mailbox <;> simp

/-- The loop has nothing to do just when the form dozes and no alarm has gone off. -/
theorem tick?_eq_none : s.tick? now = none ↔ s.form.Dozes ∧ s.form.SleepsUntil now := by
  have kinds : s.handleNext? now = none ∧ s.startRun? now = none ∧ s.endCall? now = none ∧
      s.finishRun? = none ∧ s.fireDebounce? now = none ∧ s.fireHide? now = none ∧
      s.finishLoad? now = none ↔ s.form.mailbox = [] ∧ (∀ r ∈ s.form.runs, r.isFresh = false) ∧
      (∀ r ∈ s.form.runs, r.isFinished = false) ∧ s.form.SleepsUntil now := by
    rw [handleNext?_eq_none, startRun?, endCall?, finishRun?, fireDebounce?, fireHide?, finishLoad?,
      Form.sleepsUntil_iff, ← Form.startFirst?_eq_none, ← Form.finishFirst?_eq_none,
      ← Form.endFirst?_eq_none]
    simp only [Option.map_eq_none_iff, Option.filter_eq_none_iff, decide_eq_true_eq, Nat.not_le]
    tauto
  unfold tick?
  split
  · rename_i stop
    simp only [reduceCtorEq, false_iff]
    exact fun rests => by simp [rests.1.running] at stop
  · rename_i running
    simp only [Option.orElse_eq_orElse, Option.orElse_eq_or, Option.or_eq_none_iff]
    rw [kinds]
    constructor
    · rintro ⟨mailbox, started, unfinished, sleeps⟩
      exact ⟨⟨Bool.eq_false_iff.mpr running, mailbox, started, unfinished⟩, sleeps⟩
    · rintro ⟨dozes, sleeps⟩
      exact ⟨dozes.mailbox, dozes.started, dozes.unfinished, sleeps⟩

/-- A form that dozes is woken only by what was due. -/
theorem wake_cost {p : Tariff} {calls step late : Nat} (fair : p.Fair now calls step late)
    (dozes : s.form.Dozes) (h : s.tick? now = some s') :
    s'.form.cost p + late ≤ s.form.cost p := by
  have starts : s.startRun? now = none := by
    rw [startRun?, Form.startFirst?_eq_none.mpr dozes.started, Option.map_none]
  have finishes : s.finishRun? = none := by
    rw [finishRun?, Form.finishFirst?_eq_none.mpr dozes.unfinished, Option.map_none]
  rw [tick?, if_neg (by simp [dozes.running])] at h
  rcases orElse_eq_some h with next | h
  · rw [handleNext?_eq_none.mpr dozes.mailbox] at next
    cases next
  rcases orElse_eq_some h with next | h
  · cases starts.symm.trans next
  rcases orElse_eq_some h with next | h
  · exact endCall?_cost fair next
  rcases orElse_eq_some h with next | h
  · cases finishes.symm.trans next
  rcases orElse_eq_some h with next | h
  · exact fireDebounce?_cost fair next
  rcases orElse_eq_some h with next | next
  · exact fireHide?_cost fair next
  · exact finishLoad?_cost fair next

end Scene

/-! ## Three tariffs -/

namespace Tariff

/-- Fields that are registered, or about to be. -/
def fields : Tariff where
  field := 1
  message m := if m.isRegistration then 1 else 0
  run _ := 0
  deferred := 0
  debounce _ := 0
  hide _ := 0
  load _ := 0
  stop := 0

/-- Steps that are left at a time when cycles make at most so many calls. -/
def steps (now calls : Nat) : Tariff where
  field := 0
  message := Message.work calls
  run := Run.work
  deferred := calls + 3
  debounce t := if t.due ≤ now then calls + 5 else 0
  hide t := if t.due ≤ now then 2 else 0
  load l := if l.due ≤ now then 2 else 0
  stop := 1

/-- Alarms that are still to come when cycles make at most so many calls. -/
def alarms (calls : Nat) : Tariff where
  field := 0
  message := Message.alarmsAhead calls
  run r := r.openCalls + 1
  deferred := calls + 1
  debounce _ := calls + 2
  hide _ := 1
  load _ := 1
  stop := 0

end Tariff

section Prices

variable {α : Type} (o : Option α) (n : Nat)

theorem price_of_isSome : (if o.isSome then n else 0) = o.elim 0 fun _ => n := by
  cases o <;> rfl

theorem price_of_any (P : α → Prop) [DecidablePred P] :
    (if o.any fun a => P a then n else 0) = o.elim 0 fun a => if P a then n else 0 := by
  cases o with
  | none => rfl
  | some a => by_cases holds : P a <;> simp [holds]

theorem no_price : (o.elim 0 fun _ => 0) = 0 := by
  cases o <;> rfl

theorem price_of_filter {p : α → Bool} (xs : List α) :
    (xs.filter p).length = (xs.map fun x => if p x then 1 else 0).sum := by
  induction xs with
  | nil => rfl
  | cons x rest ih =>
    rw [List.filter_cons, List.map_cons, List.sum_cons, ← ih]
    cases p x with
    | true => exact Nat.add_comm _ _
    | false => exact (Nat.zero_add _).symm

end Prices

namespace Form

variable (f : Form)

theorem callBound_eq_cost : f.callBound = f.cost .fields + 1 := by
  simp [callBound, cost, Tariff.fields, price_of_filter, no_price]

theorem work_eq_cost (now : Nat) : f.work now = f.cost (.steps now f.callBound) := by
  simp [work, cost, Tariff.steps, price_of_isSome, price_of_any, List.sum_eq_foldr]

theorem alarmsAhead_eq_cost : f.alarmsAhead = f.cost (.alarms f.callBound) := by
  simp [alarmsAhead, cost, Tariff.alarms, price_of_isSome, List.sum_eq_foldr]

end Form

namespace Run

variable {r : Run} {now k : Nat} {c : Call}

theorem openCalls_le (r : Run) : r.openCalls ≤ r.calls.length := List.length_filter_le _ _

theorem start_openCalls : (r.start now).openCalls = r.openCalls := by
  have still (c : Call) : (c.start now).isOpen = c.isOpen := by
    unfold Call.start
    split
    · rename_i waiting
      simp [Call.isOpen, waiting]
    · rfl
  simp [openCalls, start, List.filter_map, Function.comp_def, still]

/-- A call that ends is open no more. -/
theorem end_openCalls (found : r.calls[k]? = some c) (due : c.isDue now = true) :
    ({ r with calls := r.calls.set k { c with state := .ended } } : Run).openCalls + 1 =
      r.openCalls := by
  have isOpen : c.isOpen = true := by
    apply decide_eq_true
    intro ended
    simp [Call.isDue, Call.due?, ended] at due
  have closed : ({ c with state := .ended } : Call).isOpen = false := rfl
  have calls := sum_set (fun c => if c.isOpen then 1 else 0) found { c with state := .ended }
  rw [← price_of_filter, ← price_of_filter, isOpen, closed] at calls
  exact calls

theorem end_isFresh (h : ({ r with calls := r.calls.set k { c with state := .ended } } :
    Run).isFresh = true) : r.isFresh = true := by
  obtain ⟨c', inside, waiting⟩ := isFresh_iff.mp h
  rcases List.mem_or_eq_of_mem_set inside with old | rfl
  · exact isFresh_iff.mpr ⟨c', old, waiting⟩
  · cases waiting

end Run

namespace Tariff

theorem fields_fair (now calls : Nat) : fields.Fair now calls 0 0 where
  more := Nat.le_refl _
  message _ := Nat.zero_le _
  registration _ _ _ := Nat.le_refl _
  edit m edit := by
    refine ⟨fun t => Nat.zero_le _, fun g => ?_⟩
    exact Nat.zero_le _
  urge _ _ := Nat.zero_le _
  deferred _ _ _ := Nat.le_refl _
  settled _ _ _ _ := Nat.zero_le _
  start _ _ := Nat.le_refl _
  ending _ _ _ _ _ := Nat.le_refl _
  finished _ _ _ := Nat.le_refl _
  debounce _ _ := Nat.le_refl _
  hide _ _ := Nat.le_refl _
  load _ _ _ := Nat.le_refl _
  stop := Nat.le_refl _

/-- No message is handled in no time. -/
theorem message_work_pos (calls : Nat) (m : Message) : 1 ≤ m.work calls := by
  unfold Message.work
  split <;> omega

theorem steps_fair (now calls : Nat) : (steps now calls).Fair now calls 1 1 where
  more := Nat.le_refl _
  message := message_work_pos calls
  registration _ _ _ := Nat.le_refl _
  edit m edit := by
    have worth : m.work calls = calls + 6 := by
      unfold Message.isEdit at edit
      split at edit <;> first | rfl | cases edit
    constructor
    · intro t
      simp only [steps, worth]
      split <;> omega
    · intro g
      have elapsed : (Message.debounceElapsed g).work calls = calls + 4 := rfl
      simp only [steps, worth, elapsed]
      omega
  urge m urge := by
    have worth : m.work calls = calls + 4 := by
      unfold Message.isUrge at urge
      split at urge <;> first | rfl | cases urge
    simp only [steps, worth]
    omega
  deferred r short _ := by
    have few := Nat.le_trans r.openCalls_le short
    simp only [steps, Run.work]
    split <;> omega
  settled _ _ t later := by
    simp only [steps, if_neg (Nat.not_le.mpr later)]
    exact message_work_pos _ _
  start r fresh := by
    simp [steps, Run.work, Run.start_openCalls, Run.start_isFresh, fresh]
  ending r k c found due := by
    have ends := Run.end_openCalls found due
    have fresh := Run.end_isFresh (r := r) (k := k) (c := c)
    simp only [steps, Run.work]
    split
    · rename_i waiting
      rw [if_pos (fresh waiting)]
      omega
    · omega
  finished r failure _ := by
    simp only [steps, Run.work, Message.work]
    omega
  debounce t due := by
    simp only [steps, if_pos due, Message.work]
    omega
  hide t due := by
    simp only [steps, if_pos due, Message.work]
    exact Nat.le_refl _
  load l outcome due := by
    simp only [steps, if_pos due, Message.work]
    exact Nat.le_refl _
  stop := Nat.le_refl _

theorem alarms_fair (now calls : Nat) : (alarms calls).Fair now calls 0 1 where
  more := Nat.zero_le _
  message _ := Nat.zero_le _
  registration _ _ _ := Nat.zero_le _
  edit m edit := by
    have worth : m.alarmsAhead calls = calls + 2 := by
      unfold Message.isEdit at edit
      split at edit <;> first | rfl | cases edit
    constructor
    · intro t
      simp only [alarms, worth]
      omega
    · intro g
      have elapsed : (Message.debounceElapsed g).alarmsAhead calls = calls + 1 := rfl
      simp only [alarms, worth, elapsed]
      omega
  urge m urge := by
    have worth : m.alarmsAhead calls = calls + 1 := by
      unfold Message.isUrge at urge
      split at urge <;> first | rfl | cases urge
    simp only [alarms, worth]
    omega
  deferred r short _ := Nat.succ_le_succ (Nat.le_trans r.openCalls_le short)
  settled _ _ _ _ := Nat.le_refl _
  start r _ := by simp [alarms, Run.start_openCalls]
  ending r k c found due := Nat.le_of_eq (congrArg (· + 1) (Run.end_openCalls found due))
  finished r _ _ := Nat.le_add_left _ _
  debounce t _ := Nat.le_refl _
  hide t _ := Nat.le_refl _
  load l _ _ := Nat.le_refl _
  stop := Nat.le_refl _

end Tariff

/-- It does not matter for how many calls alarms are counted, if they are enough. -/
theorem Form.alarms_mono (f : Form) {n n' : Nat} (h : n ≤ n') :
    f.cost (.alarms n) ≤ f.cost (.alarms n') := by
  have messages : (f.mailbox.map (Message.alarmsAhead n)).sum ≤
      (f.mailbox.map (Message.alarmsAhead n')).sum := by
    refine List.sum_le_sum fun m _ => ?_
    unfold Message.alarmsAhead
    split <;> omega
  have deferred : (f.deferred.elim 0 fun _ => n + 1) ≤ f.deferred.elim 0 fun _ => n' + 1 := by
    cases f.deferred with
    | none => exact Nat.le_refl _
    | some d => exact Nat.succ_le_succ h
  have debounce : (f.debounce.timer.elim 0 fun _ => n + 2) ≤
      f.debounce.timer.elim 0 fun _ => n' + 2 := by
    cases f.debounce.timer with
    | none => exact Nat.le_refl _
    | some t => exact Nat.add_le_add_right h 2
  simp only [cost, Tariff.alarms]
  omega

/-! ## The loop -/

namespace Scene

variable {s s' : Scene} {now n k : Nat}

theorem registry_room (f : Form) : f.registry.size + 1 ≤ f.callBound := by
  unfold Form.callBound
  omega

/-- Nothing is registered but what has been asked for. -/
theorem tick?_callBound (h : s.tick? now = some s') : s'.form.callBound ≤ s.form.callBound := by
  rw [Form.callBound_eq_cost, Form.callBound_eq_cost]
  have step := tick?_cost (Tariff.fields_fair now (s.form.registry.size + 1)) (Nat.le_refl _) h
  omega

/-- What happens at one instant costs nothing new, and it makes room for no more calls. -/
theorem settleWithin_cost {p : Tariff} {late : Nat} (fair : p.Fair now n 0 late)
    (bound : s.form.callBound ≤ n) :
    (s.settleWithin k now).form.cost p ≤ s.form.cost p ∧
      (s.settleWithin k now).form.callBound ≤ s.form.callBound := by
  refine settleWithin_keeps (P := fun s' => s'.form.cost p ≤ s.form.cost p ∧
    s'.form.callBound ≤ s.form.callBound) ?_ k ⟨Nat.le_refl _, Nat.le_refl _⟩
  rintro a b ⟨cost, fewer⟩ next
  have room := Nat.le_trans (registry_room a.form) (Nat.le_trans fewer bound)
  have step := tick?_cost fair room next
  rw [Nat.add_zero] at step
  exact ⟨Nat.le_trans step cost, Nat.le_trans (tick?_callBound next) fewer⟩

/-- So many steps as there is work are enough. -/
theorem settleWithin_rests (bound : s.form.callBound ≤ n)
    (enough : s.form.cost (.steps now n) ≤ k) : (s.settleWithin k now).tick? now = none := by
  induction k generalizing s with
  | zero =>
    cases next : s.tick? now with
    | none => exact next
    | some s' =>
      have step := tick?_cost (Tariff.steps_fair now n) (Nat.le_trans (registry_room _) bound) next
      omega
  | succ k ih =>
    rw [settleWithin]
    cases next : s.tick? now with
    | none => exact next
    | some s' =>
      have step := tick?_cost (Tariff.steps_fair now n) (Nat.le_trans (registry_room _) bound) next
      exact ih (Nat.le_trans (tick?_callBound next) bound) (by omega)

theorem settleWithin_still (still : s.tick? now = none) : s.settleWithin n now = s := by
  cases n with
  | zero => rfl
  | succ n => rw [settleWithin, still]

/-- When the loop has ended the form dozes, and no alarm of it is due. -/
theorem settle_rests (s : Scene) (now : Nat) :
    (s.settle now).form.Dozes ∧ (s.settle now).form.SleepsUntil now := by
  rw [← tick?_eq_none]
  exact settleWithin_rests (Nat.le_refl _) (Nat.le_of_eq (s.form.work_eq_cost now).symm)

/-- What happens at one instant does not bring more alarms about than were ahead. -/
theorem settle_alarmsAhead (s : Scene) (now : Nat) :
    (s.settle now).form.alarmsAhead ≤ s.form.alarmsAhead := by
  obtain ⟨cost, bound⟩ := settleWithin_cost (k := s.form.work now)
    (Tariff.alarms_fair now s.form.callBound) (Nat.le_refl _)
  rw [Form.alarmsAhead_eq_cost, Form.alarmsAhead_eq_cost]
  exact Nat.le_trans (Form.alarms_mono _ bound) cost

/-- A form that was woken has fewer alarms ahead. -/
theorem settle_woken (dozes : s.form.Dozes) (woken : ¬ s.form.SleepsUntil now) :
    (s.settle now).form.alarmsAhead < s.form.alarmsAhead := by
  cases next : s.tick? now with
  | none => exact absurd (tick?_eq_none.mp next).2 woken
  | some s' =>
    have first := wake_cost (Tariff.alarms_fair now s.form.callBound) dozes next
    have work : 0 < s.form.work now := by
      have step := tick?_cost (Tariff.steps_fair now _) (registry_room s.form) next
      rw [Form.work_eq_cost]
      omega
    obtain ⟨k, steps⟩ := Nat.exists_eq_add_one_of_ne_zero (Nat.ne_of_gt work)
    have later : s.settle now = s'.settleWithin k now := by
      rw [settle, steps, settleWithin, next]
    obtain ⟨cost, bound⟩ := settleWithin_cost (k := k)
      (Tariff.alarms_fair now s.form.callBound) (tick?_callBound next)
    rw [later, Form.alarmsAhead_eq_cost, Form.alarmsAhead_eq_cost s.form]
    have counted := Form.alarms_mono (s'.settleWithin k now).form
      (Nat.le_trans bound (tick?_callBound next))
    omega

end Scene

end LiveForm
