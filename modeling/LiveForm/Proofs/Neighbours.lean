import LiveForm.Proofs.Alike
import LiveForm.Proofs.Session
import LiveForm.Proofs.Settling

/-!
# Forms side by side

One clock goes for all forms of a world, and it stops at the alarms of each. A form does not notice
the alarms of others: it has nothing to do then.

* `World.view`: what there is to see of one form;
* `Form.Passes`: what time makes of a form that is on its own, from one alarm to the next;
* `World.advanceWithin_passes`: the clock of a world makes the same of each of its forms;
* `World.obeyAll_apart`: what hosts order of other forms is not to be seen in a form.
-/

set_option autoImplicit false

namespace LiveForm

/-! ## A form on its own -/

namespace Form

theorem apart_apart (f : Form) : f.apart.apart = f.apart := by
  have twice (e : Event) : e.apart.apart = e.apart := by cases e <;> rfl
  simp [apart, Function.comp_def, twice]

/-- The form once it has done all that is due. -/
def settled (f : Form) (now : Nat) : Form := (Scene.settle ⟨f, .new⟩ now).form.apart

theorem settle_apart (s : Scene) (now : Nat) :
    (s.settle now).form.apart = s.form.apart.settled now := by
  have alike : s.Alike ⟨s.form.apart, .new⟩ := s.form.apart_apart.symm
  exact alike.settle now

/-- Time goes on, and at each of its alarms the form does what is due. -/
inductive Passes (target : Nat) : Form → Form → Prop where
  | sleeps {f : Form} : f.SleepsUntil target → Passes target f f
  | wakes {f f' : Form} {t : Nat} : f.nextAlarm? = some t → t ≤ target →
      Passes target (f.settled t) f' → Passes target f f'

variable {f a b : Form} {target t : Nat}

theorem SleepsUntil.early (sleeps : f.SleepsUntil target) (next : f.nextAlarm? = some t) :
    target < t :=
  sleeps t (List.min?_mem next)

/-- Time makes one thing of a form. -/
theorem Passes.unique (h : Passes target f a) (h' : Passes target f b) : a = b := by
  induction h with
  | sleeps sleeps =>
    cases h' with
    | sleeps => rfl
    | wakes next early => exact absurd early (Nat.not_le.mpr (sleeps.early next))
  | wakes next early _ ih =>
    cases h' with
    | sleeps sleeps => exact absurd early (Nat.not_le.mpr (sleeps.early next))
    | wakes next' _ rest' =>
      obtain rfl : _ = _ := Option.some.inj (next.symm.trans next')
      exact ih rest'

end Form

theorem Scene.settle_of_rests {s : Scene} {now : Nat} (dozes : s.form.Dozes)
    (sleeps : s.form.SleepsUntil now) : s.settle now = s :=
  Scene.settleWithin_still (Scene.tick?_eq_none.mpr ⟨dozes, sleeps⟩)

/-! ## The clock -/

namespace World

variable {w : World} {i n target t : Nat} {f : Form}

/-- No form has anything to do. -/
def Rests (w : World) : Prop := ∀ f ∈ w.forms, f.Dozes ∧ f.SleepsUntil w.now

/-- An act on a form is done to it beside its guard, whatever that is. -/
theorem act_form (found : w.forms[i]? = some f) (change : Scene → Scene) :
    ∃ guard, (w.act i change).forms[i]? = some (change ⟨f, guard⟩).form := by
  refine ⟨w.guard f.setup.guardName, ?_⟩
  rw [act_found found]
  exact List.getElem?_set_self (List.getElem?_eq_some_iff.mp found).1

/-- Settles the forms at some places, one after another. -/
def settleAt (w : World) (places : List Nat) : World :=
  places.foldl (fun w i => w.act i fun s => s.settle w.now) w

/-- A form stays as it is until its place is visited, and from then on. -/
theorem settleAt_each (w : World) {places : List Nat} (once : places.Nodup) :
    (w.settleAt places).now = w.now ∧ (w.settleAt places).forms.length = w.forms.length ∧
      ∀ {i : Nat} {f : Form}, w.forms[i]? = some f →
        (i ∉ places → (w.settleAt places).forms[i]? = some f) ∧
        (i ∈ places → ∃ guard,
          (w.settleAt places).forms[i]? = some (Scene.settle ⟨f, guard⟩ w.now).form) := by
  induction places generalizing w with
  | nil => exact ⟨rfl, rfl, fun found => ⟨fun _ => found, nofun⟩⟩
  | cons j rest ih =>
    obtain ⟨fresh, once⟩ := List.nodup_cons.mp once
    obtain ⟨now, length, forms⟩ := ih (w.act j fun s => s.settle w.now) once
    refine ⟨now.trans (act_now _), length.trans (act_length _), fun {i f} found => ?_⟩
    by_cases same : j = i
    · subst same
      obtain ⟨guard, acted⟩ := act_form found fun s => s.settle w.now
      exact ⟨fun away => absurd List.mem_cons_self away, fun _ => ⟨guard, (forms acted).1 fresh⟩⟩
    · obtain ⟨away, among⟩ := forms ((act_other _ same).trans found)
      rw [act_now] at among
      refine ⟨fun out => away fun inside => out (List.mem_cons_of_mem _ inside), fun inside => ?_⟩
      exact among ((List.mem_cons.mp inside).resolve_left (Ne.symm same))

/-- To settle a world is to settle each of its forms. -/
theorem settle_each (w : World) :
    w.settle.now = w.now ∧ w.settle.forms.length = w.forms.length ∧
      ∀ {i : Nat} {f : Form}, w.forms[i]? = some f →
        ∃ guard, w.settle.forms[i]? = some (Scene.settle ⟨f, guard⟩ w.now).form := by
  obtain ⟨now, length, forms⟩ := w.settleAt_each List.nodup_range
  refine ⟨now, length, fun found => (forms found).2 ?_⟩
  exact List.mem_range.mpr (List.getElem?_eq_some_iff.mp found).1

theorem settle_rests (w : World) : w.settle.Rests := by
  obtain ⟨now, length, forms⟩ := w.settle_each
  intro f inside
  obtain ⟨i, place, rfl⟩ := List.mem_iff_getElem.mp inside
  obtain ⟨guard, found⟩ := forms (List.getElem?_eq_getElem (length ▸ place))
  obtain ⟨_, same⟩ := List.getElem?_eq_some_iff.mp found
  rw [same, now]
  exact Scene.settle_rests _ _

/-- The next alarm of a world is the first of all. -/
theorem nextAlarm?_le (next : w.nextAlarm? = some t) (inside : f ∈ w.forms) {a : Nat}
    (alarm : a ∈ f.alarms) : t ≤ a := by
  obtain ⟨first, own⟩ := Option.isSome_iff_exists.mp (List.isSome_min?_of_mem alarm)
  have among : first ∈ w.forms.filterMap Form.nextAlarm? := List.mem_filterMap.mpr ⟨f, inside, own⟩
  exact Nat.le_trans ((List.min?_eq_some_iff.mp next).2 first among)
    ((List.min?_eq_some_iff.mp own).2 a alarm)

theorem sleeps_of_nextAlarm?_eq_none (still : w.nextAlarm? = none) (inside : f ∈ w.forms) :
    f.SleepsUntil target := by
  intro a alarm
  obtain ⟨first, own⟩ := Option.isSome_iff_exists.mp (List.isSome_min?_of_mem alarm)
  have among : first ∈ w.forms.filterMap Form.nextAlarm? := List.mem_filterMap.mpr ⟨f, inside, own⟩
  rw [List.min?_eq_none_iff.mp still] at among
  cases among

/-- A form whose next alarm is a different one sleeps through this one. -/
theorem sleeps_of_nextAlarm?_ne (next : w.nextAlarm? = some t) (inside : f ∈ w.forms)
    (other : f.nextAlarm? ≠ some t) : f.SleepsUntil t := by
  intro a alarm
  refine Nat.lt_of_le_of_ne (nextAlarm?_le next inside alarm) fun same => other ?_
  subst same
  exact List.min?_eq_some_iff.mpr ⟨alarm, fun b => nextAlarm?_le next inside⟩

theorem moveTo_each (w : World) (ahead : w.now ≤ t) :
    (w.moveTo t).now = t ∧ (w.moveTo t).forms.length = w.forms.length ∧
      ∀ {i : Nat} {f : Form}, w.forms[i]? = some f →
        ∃ guard, (w.moveTo t).forms[i]? = some (Scene.settle ⟨f, guard⟩ t).form := by
  rw [moveTo, Nat.max_eq_right ahead]
  exact settle_each { w with now := t }

/-- A form that has nothing to do until then stays as it is. -/
theorem moveTo_asleep (rests : w.Rests) (ahead : w.now ≤ t) (found : w.forms[i]? = some f)
    (sleeps : f.SleepsUntil t) : (w.moveTo t).forms[i]? = some f := by
  obtain ⟨guard, moved⟩ := (w.moveTo_each ahead).2.2 found
  rwa [Scene.settle_of_rests (rests f (List.mem_of_getElem? found)).1 sleeps] at moved

theorem alarmsAhead_eq_sum (w : World) : w.alarmsAhead = (w.forms.map Form.alarmsAhead).sum :=
  List.sum_eq_foldr.symm

/-- At an alarm of one form there are fewer alarms ahead. -/
theorem moveTo_alarmsAhead (rests : w.Rests) (ahead : w.now ≤ t) (next : w.nextAlarm? = some t) :
    (w.moveTo t).alarmsAhead < w.alarmsAhead := by
  let woken (f : Form) : Nat := if f.nextAlarm? = some t then 1 else 0
  obtain ⟨-, length, forms⟩ := w.moveTo_each ahead
  have fewer := sum_add_le Form.alarmsAhead woken length.symm
    fun i f f' found moved => by
      obtain ⟨guard, settled⟩ := forms found
      cases moved.symm.trans settled
      by_cases own : f.nextAlarm? = some t
      · have dozes := (rests f (List.mem_of_getElem? found)).1
        have wakes := Scene.settle_woken (s := ⟨f, guard⟩) dozes fun sleeps =>
          Nat.lt_irrefl t (sleeps.early own)
        rw [show woken f = 1 from if_pos own]
        exact wakes
      · rw [show woken f = 0 from if_neg own]
        exact Scene.settle_alarmsAhead ⟨f, guard⟩ t
  have some : 1 ≤ (w.forms.map woken).sum := by
    obtain ⟨f, inside, own⟩ := List.mem_filterMap.mp (List.min?_mem next)
    have counted : woken f = 1 := if_pos own
    exact counted ▸ List.le_sum_of_mem (List.mem_map_of_mem inside)
  rw [alarmsAhead_eq_sum, alarmsAhead_eq_sum]
  omega

/-- The clock of a world brings each form where it would come on its own. -/
theorem advanceWithin_passes (rests : w.Rests) (ahead : w.now ≤ target)
    (enough : w.alarmsAhead ≤ n) :
    (advanceWithin n w target).now = target ∧
      (advanceWithin n w target).forms.length = w.forms.length ∧
      ∀ {i : Nat} {f : Form}, w.forms[i]? = some f → ∃ f',
        (advanceWithin n w target).forms[i]? = some f' ∧ f.apart.Passes target f'.apart := by
  -- when nothing comes due any more
  have ends {w : World} (rests : w.Rests) (ahead : w.now ≤ target)
      (sleep : ∀ f ∈ w.forms, f.SleepsUntil target) :
      (w.moveTo target).now = target ∧ (w.moveTo target).forms.length = w.forms.length ∧
        ∀ {i : Nat} {f : Form}, w.forms[i]? = some f → ∃ f',
          (w.moveTo target).forms[i]? = some f' ∧ f.apart.Passes target f'.apart := by
    obtain ⟨now, length, -⟩ := w.moveTo_each ahead
    refine ⟨now, length, fun {i f} found => ?_⟩
    have sleeps := sleep f (List.mem_of_getElem? found)
    exact ⟨f, moveTo_asleep rests ahead found sleeps, .sleeps sleeps⟩
  induction n generalizing w with
  | zero =>
    refine ends rests ahead fun f inside => ?_
    by_contra woken
    have fewer : _ < f.alarmsAhead :=
      Scene.settle_woken (s := ⟨f, .new⟩) (rests f inside).1 woken
    have counted : f.alarmsAhead ≤ w.alarmsAhead := by
      rw [alarmsAhead_eq_sum]
      exact List.le_sum_of_mem (List.mem_map_of_mem inside)
    omega
  | succ n ih =>
    rw [advanceWithin]
    split
    · rename_i t next
      split
      · rename_i early
        obtain ⟨f₀, inside₀, own₀⟩ := List.mem_filterMap.mp (List.min?_mem next)
        have later : w.now < t := (rests f₀ inside₀).2.early own₀
        have fewer := moveTo_alarmsAhead rests (Nat.le_of_lt later) next
        obtain ⟨moved, same, forms⟩ := w.moveTo_each (Nat.le_of_lt later)
        obtain ⟨now, length, passes⟩ := ih (w := w.moveTo t) (settle_rests _)
          (moved.symm ▸ early) (by omega)
        refine ⟨now, length.trans same, fun {i f} found => ?_⟩
        obtain ⟨guard, settled⟩ := forms found
        by_cases own : f.nextAlarm? = some t
        · obtain ⟨f', there, passed⟩ := passes settled
          rw [Form.settle_apart] at passed
          exact ⟨f', there, .wakes own early passed⟩
        · have inside := List.mem_of_getElem? found
          have asleep := moveTo_asleep rests (Nat.le_of_lt later) found
            (sleeps_of_nextAlarm?_ne next inside own)
          exact passes asleep
      · rename_i late
        refine ends rests ahead fun f inside a alarm => ?_
        exact Nat.lt_of_lt_of_le (Nat.not_le.mp late) (nextAlarm?_le next inside alarm)
    · rename_i still
      exact ends rests ahead fun f inside => sleeps_of_nextAlarm?_eq_none still inside

/-- So many moves as there are alarms ahead are enough. -/
theorem advance_passes (rests : w.Rests) (ms : Nat) :
    (w.advance ms).now = w.now + ms ∧ (w.advance ms).forms.length = w.forms.length ∧
      ∀ {i : Nat} {f : Form}, w.forms[i]? = some f → ∃ f',
        (w.advance ms).forms[i]? = some f' ∧ f.apart.Passes (w.now + ms) f'.apart :=
  advanceWithin_passes rests (Nat.le_add_right _ _) (Nat.le_refl _)

/-! ## Two worlds -/

/-- What there is to see of one form: the time, and the form but for what it knows of its guard. -/
def view (i : Nat) (w : World) : Nat × Option Form := (w.now, w.forms[i]?.map Form.apart)

/-- Of two worlds the same is to be seen of a form. -/
structure Alongside (i : Nat) (a b : World) : Prop where
  view : a.view i = b.view i
  length : a.forms.length = b.forms.length

theorem spawn_forms (w : World) (c : FormConfig) :
    (w.spawn c).forms = w.forms ++ [(Moment.opening c w.now (w.guard c.guardName)).form] := by
  have made : (w.forms ++ [Form.make c w.now])[w.forms.length]? = some (Form.make c w.now) := by
    simp
  rw [World.spawn, act_found made]
  simp [putScene, Moment.opening]
  rfl

theorem spawn_now (w : World) (c : FormConfig) : (w.spawn c).now = w.now := act_now _

theorem opening_alike (c : FormConfig) (now : Nat) (guard guard' : UnloadGuard) :
    (Moment.opening c now guard).form.Alike (Moment.opening c now guard').form :=
  Scene.Alike.land (Scene.Alike.publishCurrent rfl)

namespace Alongside

variable {a b : World} {i j : Nat}

theorem now (h : Alongside i a b) : a.now = b.now := congrArg Prod.fst h.view

theorem forms (h : Alongside i a b) :
    a.forms[i]?.map Form.apart = b.forms[i]?.map Form.apart := congrArg Prod.snd h.view

/-- A form that is in one world is in the other too. -/
theorem found (h : Alongside i a b) {f : Form} (found : a.forms[i]? = some f) :
    ∃ g, b.forms[i]? = some g ∧ f.Alike g := by
  have same := h.forms
  rw [found] at same
  obtain ⟨g, found', alike⟩ := Option.map_eq_some_iff.mp same.symm
  exact ⟨g, found', alike.symm⟩

/-- Whatever makes forms that are alike into such forms. -/
theorem goesOn {a' b' : World} (h : Alongside i a b) (now : a'.now = b'.now)
    (length : a'.forms.length = a.forms.length) (length' : b'.forms.length = b.forms.length)
    (each : ∀ f g, a.forms[i]? = some f → b.forms[i]? = some g → f.Alike g →
      ∃ f' g', a'.forms[i]? = some f' ∧ b'.forms[i]? = some g' ∧ f'.Alike g') :
    Alongside i a' b' where
  view := by
    refine Prod.ext now ?_
    show a'.forms[i]?.map Form.apart = b'.forms[i]?.map Form.apart
    by_cases inside : i < a.forms.length
    · have place := List.getElem?_eq_getElem inside
      obtain ⟨g, place', alike⟩ := h.found place
      obtain ⟨f', g', found, found', alike'⟩ := each _ _ place place' alike
      rw [found, found']
      exact congrArg some alike'
    · have outside := Nat.not_lt.mp inside
      rw [List.getElem?_eq_none (length ▸ outside),
        List.getElem?_eq_none (length' ▸ h.length ▸ outside)]
  length := by rw [length, length', h.length]

/-- An act on another form is not to be seen. -/
theorem aside (h : Alongside i a b) (other : j ≠ i) (change : Scene → Scene) :
    Alongside i (a.act j change) b where
  view := by
    refine Eq.trans ?_ h.view
    rw [World.view, World.view, act_now, act_other _ other]
  length := (act_length _).trans h.length

/-- An act that does the same to forms that are alike. -/
theorem act (h : Alongside i a b) {change change' : Scene → Scene}
    (same : ∀ {s t : Scene}, s.Alike t → (change s).Alike (change' t)) :
    Alongside i (a.act i change) (b.act i change') := by
  refine h.goesOn (by rw [act_now, act_now, h.now]) (act_length _) (act_length _) ?_
  intro f g place place' alike
  obtain ⟨guard, acted⟩ := act_form place change
  obtain ⟨guard', acted'⟩ := act_form place' change'
  exact ⟨_, _, acted, acted', same alike⟩

theorem spawn (h : Alongside i a b) (c : FormConfig) : Alongside i (a.spawn c) (b.spawn c) where
  view := by
    have alike : Form.apart _ = Form.apart _ := opening_alike c a.now (a.guard c.guardName)
      (b.guard c.guardName)
    rw [World.view, World.view, spawn_now, spawn_now, h.now, spawn_forms, spawn_forms,
      List.getElem?_append, List.getElem?_append, ← h.length, ← h.now]
    refine Prod.ext rfl ?_
    split
    · exact h.forms
    · rw [← List.getElem?_map, ← List.getElem?_map, List.map_singleton, List.map_singleton, alike]
  length := by
    rw [spawn_forms, spawn_forms, List.length_append, List.length_append, h.length]
    rfl

theorem settle (h : Alongside i a b) : Alongside i a.settle b.settle := by
  obtain ⟨now, length, forms⟩ := a.settle_each
  obtain ⟨now', length', forms'⟩ := b.settle_each
  refine h.goesOn (by rw [now, now', h.now]) length length' fun f g place place' alike => ?_
  obtain ⟨guard, settled⟩ := forms place
  obtain ⟨guard', settled'⟩ := forms' place'
  rw [← h.now] at settled'
  exact ⟨_, _, settled, settled', Scene.Alike.settle alike _⟩

/-- Where all forms rest the clock can go on. -/
theorem advance (h : Alongside i a b) (rests : a.Rests) (rests' : b.Rests) (ms : Nat) :
    Alongside i (a.advance ms) (b.advance ms) := by
  obtain ⟨now, length, forms⟩ := advance_passes rests ms
  obtain ⟨now', length', forms'⟩ := advance_passes rests' ms
  refine h.goesOn (by rw [now, now', h.now]) length length' fun f g place place' alike => ?_
  obtain ⟨f', passed, passes⟩ := forms place
  obtain ⟨g', passed', passes'⟩ := forms' place'
  have same : f.apart = g.apart := alike
  rw [← same, ← h.now] at passes'
  exact ⟨f', g', passed, passed', passes.unique passes'⟩

end Alongside

/-! ## Orders -/

/-- What hosts do with a world. Forms are named by their places. -/
inductive Order where
  | spawn (c : FormConfig)
  | send (form : Nat) (m : Message)
  | stop (form : Nat)
  | settle
  | pass (ms : Nat)

/-- Holds of what is ordered of one form, or of all. -/
def Order.concerns (i : Nat) : Order → Bool
  | .send j _ | .stop j => i = j
  | _ => true

/-- Time passes only when all that is due has been done. -/
def obey (w : World) : Order → World
  | .spawn c => w.spawn c
  | .send i m => w.act i fun s => s.update fun f => f.post m
  | .stop i => w.act i fun s => s.update fun f => { f with stopRequested := f.alive }
  | .settle => w.settle
  | .pass ms => w.settle.advance ms

def obeyAll (w : World) (orders : List Order) : World := orders.foldl obey w

theorem Alongside.obey {a b : World} (h : Alongside i a b) {o : Order}
    (own : o.concerns i = true) : Alongside i (a.obey o) (b.obey o) := by
  cases o with
  | spawn c => exact h.spawn c
  | send j m =>
    obtain rfl : i = j := of_decide_eq_true own
    exact h.act fun alike => alike.post m
  | stop j =>
    obtain rfl : i = j := of_decide_eq_true own
    exact h.act fun alike => alike.update _ fun _ _ _ => rfl
  | settle => exact h.settle
  | pass ms => exact h.settle.advance a.settle_rests b.settle_rests ms

theorem Alongside.disobey {a b : World} (h : Alongside i a b) {o : Order}
    (other : o.concerns i = false) : Alongside i (a.obey o) b := by
  cases o with
  | send j | stop j =>
    unfold World.obey
    exact h.aside (Ne.symm (of_decide_eq_false other)) _
  | spawn | settle | pass => cases other

/-- What is to be seen of a form is the same without the orders that do not concern it. The other
forms, which do other things then, or nothing, have their alarms at other times. -/
theorem obeyAll_apart (i : Nat) (orders : List Order) :
    (empty.obeyAll orders).view i =
      (empty.obeyAll (orders.filter fun o => o.concerns i)).view i := by
  have all {a b : World} (h : Alongside i a b) :
      Alongside i (a.obeyAll orders) (b.obeyAll (orders.filter fun o => o.concerns i)) := by
    induction orders generalizing a b with
    | nil => exact h
    | cons o rest ih =>
      cases own : o.concerns i with
      | true =>
        rw [List.filter_cons_of_pos own]
        exact ih (h.obey own)
      | false =>
        rw [List.filter_cons_of_neg (by simp [own])]
        exact ih (h.disobey own)
  exact (all ⟨rfl, rfl⟩).view

end World

end LiveForm
