import LiveForm.Proofs.Execution
import LiveForm.Session

/-!
# Sessions run courses

In a session hosts act on forms side by side, which share guards and one clock. What happens to one
of the forms is a course all the same, so what holds along every course holds of each of them.

* `World.Reaches`: a form has come where it is by a course;
* `World.OnCourse`: so has every form. Acts on one form keep it so, and so does the clock;
* `Session.reached_onCourse`: it is so in every session that hosts can bring about.
-/

set_option autoImplicit false

namespace LiveForm

/-- A course does to a scene what is told, and it takes its tickets from between two bounds. -/
def Scene.Allowed (now : Nat) (tickets tickets' : Ticket) (change : Scene → Scene) : Prop :=
  ∀ m : Moment, m.now = now → m.nextTicket ≤ tickets → m.form.Together →
    (∃ log, ∃ n ≤ tickets', Course m log { m with nextTicket := n, scene := change m.scene }) ∧
      (change m.scene).form.Together

namespace Scene

variable {now : Nat} {tickets : Ticket}

theorem settle_allowed : Allowed now tickets tickets fun s => s.settle now := by
  rintro m rfl few together
  obtain ⟨⟨log, course⟩, kept⟩ := Moment.settle_course together
  exact ⟨⟨log, _, few, course⟩, kept⟩

theorem ask_allowed (request : Request) :
    Allowed now tickets (tickets + 1) fun s => s.update fun f => f.post (.ask tickets request) := by
  intro m _ few together
  have done : m.perform? (.ask tickets request) = some { m with
      nextTicket := tickets + 1
      scene := m.scene.update fun f => f.post (.ask tickets request) } := if_pos few
  exact ⟨⟨_, _, Nat.le_refl _, .next .here done⟩, Form.Together.post together⟩

theorem change_allowed (path : FieldPath) (value : Json) :
    Allowed now tickets tickets fun s => s.update fun f => f.post (.fieldChanged path value) := by
  intro m _ few together
  have done : m.perform? (.change path value) = some { m with
      scene := m.scene.update fun f => f.post (.fieldChanged path value) } := rfl
  exact ⟨⟨_, _, few, .next .here done⟩, Form.Together.post together⟩

theorem stop_allowed :
    Allowed now tickets tickets fun s => s.update fun f => { f with stopRequested := f.alive } := by
  intro m _ few together
  have done : m.perform? .stop = some { m with
      scene := m.scene.update fun f => { f with stopRequested := f.alive } } := rfl
  exact ⟨⟨_, _, few, .next .here done⟩, together⟩

end Scene

/-! ## Forms side by side -/

namespace World

/-- A moment is that of a form of the world. Others may have got tickets since. -/
structure Shows (w : World) (tickets : Ticket) (i : Nat) (m : Moment) : Prop where
  form : w.forms[i]? = some m.form
  now : m.now = w.now
  guard : m.scene.guard = w.guard m.form.setup.guardName
  tickets : m.nextTicket ≤ tickets

/-- A form that was started with `c` has come where it is by a course. -/
def Reaches (w : World) (tickets : Ticket) (i : Nat) (c : FormConfig) : Prop :=
  ∃ now guard log m, Course (.opening c now guard) log m ∧ w.Shows tickets i m ∧ m.form.Together

structure OnCourse (w : World) (configs : List FormConfig) (tickets : Ticket) : Prop where
  length : w.forms.length = configs.length
  each : ∀ i c, configs[i]? = some c → w.Reaches tickets i c

variable {w w' : World} {configs : List FormConfig} {tickets tickets' : Ticket} {i : Nat}
  {c : FormConfig} {m : Moment}

theorem act_found {change : Scene → Scene} {f : Form} (found : w.forms[i]? = some f) :
    w.act i change = w.putScene i (change ⟨f, w.guard f.setup.guardName⟩) := by
  rw [World.act, found]

/-- What is put into the world is shown there. -/
theorem putScene_shows (inside : i < w.forms.length) (now : m.now = w.now)
    (few : m.nextTicket ≤ tickets) : (w.putScene i m.scene).Shows tickets i m where
  form := List.getElem?_set_self inside
  now := now
  guard := by simp [World.guard, putScene]
  tickets := few

/-- What is done to other forms changes at most the guard that a form shares with them. -/
theorem Reaches.aside (h : w.Reaches tickets i c) (form : w'.forms[i]? = w.forms[i]?)
    (now : w'.now = w.now) (le : tickets ≤ tickets') : w'.Reaches tickets' i c := by
  obtain ⟨start, guard, log, m, course, shows, together⟩ := h
  let shared := w'.guard m.form.setup.guardName
  have done : m.perform? (.share shared) = some { m with
      scene := { m.scene with guard := shared } } := rfl
  refine ⟨start, guard, _, _, course.next done, ⟨form.trans shows.form, ?_, rfl, ?_⟩, together⟩
  · exact shows.now.trans now.symm
  · exact Nat.le_trans shows.tickets le

theorem Reaches.act {change : Scene → Scene} (h : w.Reaches tickets i c)
    (allowed : Scene.Allowed w.now tickets tickets' change) :
    (w.act i change).Reaches tickets' i c := by
  obtain ⟨start, guard, log, m, course, shows, together⟩ := h
  obtain ⟨⟨log', n, few, after⟩, kept⟩ := allowed m shows.now shows.tickets together
  have inside := (List.getElem?_eq_some_iff.mp shows.form).1
  have shown := putScene_shows (m := { m with nextTicket := n, scene := change m.scene })
    inside shows.now few
  rw [act_found shows.form, ← shows.guard]
  exact ⟨start, guard, _, _, course.append after, shown, kept⟩

theorem act_now (change : Scene → Scene) : (w.act i change).now = w.now := by
  unfold World.act
  split <;> rfl

theorem act_length (change : Scene → Scene) :
    (w.act i change).forms.length = w.forms.length := by
  unfold World.act
  split
  · exact List.length_set
  · rfl

theorem act_other {j : Nat} (change : Scene → Scene) (other : i ≠ j) :
    (w.act i change).forms[j]? = w.forms[j]? := by
  unfold World.act
  split
  · exact List.getElem?_set_ne other
  · rfl

namespace OnCourse

theorem mono (h : w.OnCourse configs tickets) (le : tickets ≤ tickets') :
    w.OnCourse configs tickets' where
  length := h.length
  each i c config := (h.each i c config).aside rfl rfl le

/-- An act on one form takes that one along a course, and the others stay where they are. -/
theorem act {change : Scene → Scene} (h : w.OnCourse configs tickets) (le : tickets ≤ tickets')
    (allowed : Scene.Allowed w.now tickets tickets' change) :
    (w.act i change).OnCourse configs tickets' where
  length := (act_length change).trans h.length
  each j c config := by
    by_cases same : i = j
    · subst same
      exact (h.each i c config).act allowed
    · exact (h.each j c config).aside (act_other change same) (act_now change) le

theorem settle (h : w.OnCourse configs tickets) : w.settle.OnCourse configs tickets := by
  have all (places : List Nat) (w : World) (h : w.OnCourse configs tickets) :
      (places.foldl (fun w i => w.act i fun s => s.settle w.now) w).OnCourse configs tickets := by
    induction places generalizing w with
    | nil => exact h
    | cons i rest ih => exact ih _ (h.act (Nat.le_refl _) Scene.settle_allowed)
  exact all _ w h

/-- Forms wait while the clock moves. -/
theorem pass (h : w.OnCourse configs tickets) (time : Nat) :
    ({ w with now := max w.now time } : World).OnCourse configs tickets where
  length := h.length
  each i c config := by
    obtain ⟨start, guard, log, m, course, shows, together⟩ := h.each i c config
    have done : m.perform? (.pass (time - w.now)) =
        some { m with now := m.now + (time - w.now) } := rfl
    have now : m.now + (time - w.now) = max w.now time := by
      rw [shows.now]
      omega
    exact ⟨start, guard, _, _, course.next done, ⟨shows.form, now, shows.guard, shows.tickets⟩,
      together⟩

theorem moveTo (h : w.OnCourse configs tickets) (time : Nat) :
    (w.moveTo time).OnCourse configs tickets := (h.pass time).settle

theorem advanceWithin (h : w.OnCourse configs tickets) (n target : Nat) :
    (World.advanceWithin n w target).OnCourse configs tickets := by
  induction n generalizing w with
  | zero => exact h.moveTo target
  | succ n ih =>
    rw [World.advanceWithin]
    split
    · rename_i t _
      split
      · exact ih (h.moveTo t)
      · exact h.moveTo target
    · exact h.moveTo target

theorem waitWithin (h : w.OnCourse configs tickets) (n i : Nat) (wanted : Form → Bool)
    (deadline : Option Nat) :
    (World.waitWithin n w i wanted deadline).1.OnCourse configs tickets := by
  induction n generalizing w with
  | zero => exact h.moveTo _
  | succ n ih =>
    rw [World.waitWithin]
    split
    · exact h
    · split
      · exact h
      · split
        · exact h
        · split
          · rename_i t _
            exact ih (h.moveTo t)
          · exact h.moveTo _

/-- A form that is started is at its opening. -/
theorem spawn (h : w.OnCourse configs tickets) (c : FormConfig) :
    (w.spawn c).OnCourse (configs ++ [c]) tickets := by
  let wider : World := { w with forms := w.forms ++ [Form.make c w.now] }
  let opening := Moment.opening c w.now (w.guard c.guardName)
  have inside : w.forms.length < wider.forms.length := by simp [wider]
  have made : wider.forms[w.forms.length]? = some (Form.make c w.now) := by simp [wider]
  have spawned : w.spawn c = wider.putScene w.forms.length opening.scene := by
    unfold World.spawn
    exact act_found made
  constructor
  · rw [spawned]
    simp [putScene, wider, h.length]
  · intro i d config
    rw [List.getElem?_append] at config
    split at config
    · rename_i old
      have other : w.forms.length ≠ i := by
        rw [h.length]
        omega
      refine (h.each i d config).aside ((act_other _ other).trans ?_) (act_now _) (Nat.le_refl _)
      exact List.getElem?_append_left (h.length ▸ old)
    · rename_i new
      have last : i = w.forms.length := by
        have bound := (List.getElem?_eq_some_iff.mp config).1
        rw [List.length_singleton] at bound
        rw [h.length]
        omega
      subst last
      obtain rfl : c = d := by simpa [h.length] using config
      rw [spawned]
      exact ⟨_, _, _, opening, .here, putScene_shows inside rfl (Nat.zero_le _),
        Moment.opening_together _ _ _⟩

end OnCourse

theorem empty_onCourse : empty.OnCourse [] 0 where
  length := rfl
  each := by simp

theorem spawnAll_onCourse (h : w.OnCourse configs tickets) (more : List FormConfig) :
    (more.foldl World.spawn w).OnCourse (configs ++ more) tickets := by
  induction more generalizing w configs with
  | nil => rwa [List.append_nil]
  | cons c rest ih =>
    rw [List.append_cons]
    exact ih (h.spawn c)

end World

/-! ## Sessions -/

namespace Session

/-- Sessions that hosts can bring about. -/
inductive Reached (configs : List FormConfig) : Session → Prop where
  | start : Reached configs (start configs)
  | step {s : Session} (x : SessionStep) : Reached configs s → Reached configs (s.step x).1
  | report {s : Session} : Reached configs s → Reached configs s.report.1

def OnCourse (s : Session) (configs : List FormConfig) : Prop :=
  s.world.OnCourse configs s.nextTicket

variable {s : Session} {configs : List FormConfig}

theorem start_onCourse (configs : List FormConfig) : (start configs).OnCourse configs :=
  (World.spawnAll_onCourse World.empty_onCourse configs).settle

namespace OnCourse

theorem ask (h : s.OnCourse configs) (i : Nat) (request : Request) (awaited : Ticket → Awaited) :
    (s.ask i request awaited).1.OnCourse configs := by
  unfold Session.ask
  split
  · exact World.OnCourse.act h (Nat.le_succ _) (Scene.ask_allowed request)
  · exact h

theorem withPath (h : s.OnCourse configs) (text : String) {go : FieldPath → Session × Awaited}
    (goes : ∀ path, (go path).1.OnCourse configs) :
    (s.withPath text go).1.OnCourse configs := by
  unfold Session.withPath
  split
  · exact goes _
  · exact h

theorem postSubmit (h : s.OnCourse configs) (i : Nat) :
    (s.postSubmit i).1.OnCourse configs := by
  unfold Session.postSubmit
  dsimp only
  split
  · exact World.OnCourse.act h (Nat.le_succ _) (Scene.ask_allowed .submit)
  · exact h

/-- Whatever a command sends, the form is asked something, told of a change or stopped. -/
theorem post (h : s.OnCourse configs) (i : Nat) (command : Command) :
    (s.post i command).1.OnCourse configs := by
  cases command with
  | register text rules listener hook =>
    cases rules with
    | none => exact h
    | some rules => exact h.withPath text fun path => h.ask i _ _
  | change text value =>
    rw [Session.post]
    split
    · exact h
    · split
      · exact World.OnCourse.act h (Nat.le_refl _) (Scene.change_allowed _ value)
      · exact h
  | set text value dirty => exact h.withPath text fun path => h.ask i _ _
  | get text => exact h.withPath text fun path => h.ask i _ _
  | unregister texts =>
    rw [Session.post]
    split
    · exact h.ask i _ _
    · exact h
  | unregisterAll | reset | values | dirtyValues | state | button => exact h.ask i _ _
  | stop => exact World.OnCourse.act h (Nat.le_refl _) Scene.stop_allowed
  | submit => exact h.postSubmit i
  | currentState | guard => exact h

theorem postAll (h : s.OnCourse configs) (commands : List (Nat × Command)) :
    (s.postAll commands).1.OnCourse configs := by
  induction commands generalizing s with
  | nil => exact h
  | cons x rest ih => exact ih (h.post x.1 x.2)

theorem collect (h : s.OnCourse configs) (awaited : Awaited) :
    (s.collect awaited).1.OnCourse configs := by
  cases awaited with
  | known | reply => exact h
  | binding i ticket text path =>
    rw [Session.collect]
    split <;> exact h

theorem collectAll (h : s.OnCourse configs) (all : List Awaited) :
    (s.collectAll all).1.OnCourse configs := by
  induction all generalizing s with
  | nil => exact h
  | cons a rest ih => exact ih (h.collect a)

theorem run (h : s.OnCourse configs) (commands : List (Nat × Command)) :
    (s.run commands).1.OnCourse configs := by
  have settled : OnCourse { (s.postAll commands).1 with
      world := (s.postAll commands).1.world.settle } configs :=
    World.OnCourse.settle (h.postAll commands)
  exact settled.collectAll _

theorem step (h : s.OnCourse configs) (x : SessionStep) : (s.step x).1.OnCourse configs := by
  cases x with
  | command i c =>
    have runs := h.run [(i, c)]
    rw [Session.step]
    split
    · rename_i ran
      rwa [ran] at runs
    · rename_i ran
      rwa [ran] at runs
  | batch commands => exact h.run commands
  | advance ms => exact World.OnCourse.advanceWithin h _ _
  | wait i phase count timeout =>
    rw [Session.step]
    exact World.OnCourse.waitWithin h _ _ _ _

end OnCourse

/-- However forms are started and whatever their hosts do, each form has come where it is by a
course from its opening. -/
theorem reached_onCourse (reached : Reached configs s) : s.OnCourse configs := by
  induction reached with
  | start => exact start_onCourse configs
  | step x _ ih => exact ih.step x
  | report _ ih => exact ih

end Session

end LiveForm
