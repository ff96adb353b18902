import LiveForm.Proofs.Clock
import LiveForm.Proofs.Lamp
import LiveForm.Proofs.Standing.Handling

/-!
# When the loader shows

The loader shows while a submission is in flight and for the delay after it.

* `Lamp.Lit`: it shows as long as it is due, and when nothing is in flight one timer or message is
  still to hide it;
* `Lamp.Step.lit`: every deed leaves it at that;
* `Lamp.Fades`: the submission has ended, and the loader is to be hidden at a certain time;
* `loader_shows_as_due`: what this comes to on every course.
-/

set_option autoImplicit false

namespace LiveForm

/-- How many timers and messages are still to hide the loader that was shown last. -/
def Form.hidings (f : Form) : Nat :=
  (f.loader.hideTimer.filter fun t => t.generation == f.loader.generation).toList.length +
    f.mailbox.countP fun m => m.hides? == some f.loader.generation

namespace Lamp

variable {l l' : Lamp} {now : Nat} {cue : Cue}

def hidings (l : Lamp) : Nat :=
  (l.loader.hideTimer.filter fun t => t.generation == l.loader.generation).toList.length +
    l.notices.count l.loader.generation

theorem hidings_pos {rest : List Nat} (head : l.notices = l.loader.generation :: rest) :
    0 < l.hidings :=
  Nat.add_pos_right _ (List.count_pos_iff.mpr (head ▸ List.mem_cons_self))

/-- The loader shows as long as it is due: while a submission is in flight, and then until the one
timer or message of its generation has come through. -/
structure Lit (l : Lamp) : Prop where
  generation : l.loader.generation = l.cycles
  known : ∀ g ∈ l.notices, g ≤ l.loader.generation
  timer : ∀ t, l.loader.hideTimer = some t → t.generation = l.loader.generation
  shows : l.flying = true → l.loader.visible = true
  one : l.hidings = if l.loader.visible = true ∧ l.flying = false then 1 else 0

namespace Lit

theorem hidings_flying (lit : l.Lit) (busy : l.flying = true) : l.hidings = 0 := by
  simpa [busy] using lit.one

theorem land (lit : l.Lit) (busy : l.flying = true) : (l.land now).Lit := by
  have none := lit.hidings_flying busy
  have shows := lit.shows busy
  by_cases delay : l.delay = 0
  · have landed : l.land now =
        { l with flying := false, loader := { l.loader with visible := false } } := by
      simp [Lamp.land, delay]
    rw [landed]
    exact ⟨lit.generation, lit.known, lit.timer, nofun, none⟩
  · have landed : l.land now = { l with
        flying := false
        loader := { l.loader with
          hideTimer := some ⟨now + l.delay, l.loader.generation⟩ } } := by
      simp [Lamp.land, delay]
    have noticed : l.notices.count l.loader.generation = 0 := (Nat.add_eq_zero_iff.mp none).2
    rw [landed]
    refine ⟨lit.generation, lit.known, ?_, nofun, ?_⟩
    · rintro _ ⟨⟩
      rfl
    · simp [hidings, noticed, shows]

theorem begin (lit : l.Lit) : l.begin.Lit where
  generation := congrArg (· + 1) lit.generation
  known g among := Nat.le_succ_of_le (lit.known g among)
  timer _ := nofun
  shows _ := rfl
  one := by
    have new : l.loader.generation + 1 ∉ l.notices := fun among => by
      have := lit.known _ among
      omega
    simp [hidings, Lamp.begin, List.count_eq_zero.mpr new]

/-- A message that is no notice. -/
theorem handles (lit : l.Lit) (unnoticed : ∀ g, cue ≠ .hide g) (h : l.Handles now cue l') :
    l'.Lit := by
  cases h with
  | still => exact lit
  | begins => exact lit.begin
  | hears | hides => exact absurd rfl (unnoticed _)
  | lands busy => exact lit.land busy
  | restarts busy => exact (lit.land busy).begin

/-- A notice that does not count is of an earlier loader. -/
theorem hears {g : Nat} {rest : List Nat} (lit : l.Lit) (head : l.notices = g :: rest)
    (idle : g ≠ l.loader.generation ∨ l.flying = true) : Lamp.Lit { l with notices := rest } := by
  have other : g ≠ l.loader.generation := by
    rcases idle with other | busy
    · exact other
    · rintro rfl
      have none := lit.hidings_flying busy
      have some := hidings_pos head
      omega
  have same : Lamp.hidings { l with notices := rest } = l.hidings := by
    simp [hidings, head, other]
  exact ⟨lit.generation, fun g' among => lit.known g' (head ▸ List.mem_cons_of_mem _ among),
    lit.timer, lit.shows, same.trans lit.one⟩

/-- The notice that counts is the last one. -/
theorem hides {rest : List Nat} (lit : l.Lit) (head : l.notices = l.loader.generation :: rest) :
    (Lamp.hide { l with notices := rest }).Lit where
  generation := lit.generation
  known g among := lit.known g (head ▸ List.mem_cons_of_mem _ among)
  timer _ := nofun
  shows busy := by
    have none := lit.hidings_flying busy
    have some := hidings_pos head
    omega
  one := by
    have most : l.hidings ≤ 1 := by
      rw [lit.one]
      split <;> omega
    have counted : l.hidings =
        (l.loader.hideTimer.filter fun t => t.generation == l.loader.generation).toList.length +
          (rest.count l.loader.generation + 1) := by
      rw [hidings, head, List.count_cons_self]
    have none : rest.count l.loader.generation = 0 := by omega
    simp [hidings, Lamp.hide, none]

end Lit

/-- Every deed leaves the loader as it is due. -/
theorem Step.lit (h : l.Step now cue l') (lit : l.Lit) : l'.Lit := by
  cases h with
  | still => exact lit
  | straggle old =>
    rename_i g
    have other : l.loader.generation ≠ g := Nat.ne_of_gt old
    have same : Lamp.hidings { l with notices := l.notices ++ [g] } = l.hidings := by
      simp [hidings, List.count_append, other.symm]
    refine ⟨lit.generation, fun g' among => ?_, lit.timer, lit.shows, same.trans lit.one⟩
    rcases List.mem_append.mp among with before | last
    · exact lit.known g' before
    · rw [List.mem_singleton.mp last]
      exact Nat.le_of_lt old
  | @fire t timer due =>
    have current := lit.timer t timer
    have same : Lamp.hidings { l with
        loader := { l.loader with hideTimer := none }
        notices := l.notices ++ [t.generation] } = l.hidings := by
      simp [hidings, timer, current, Option.filter]
      omega
    refine ⟨lit.generation, fun g' among => ?_, nofun, lit.shows, same.trans lit.one⟩
    rcases List.mem_append.mp among with before | last
    · exact lit.known g' before
    · rw [List.mem_singleton.mp last]
      exact Nat.le_of_eq current
  | handle unnoticed handled => exact lit.handles unnoticed handled
  | notice head handled =>
    cases handled with
    | hears idle => exact lit.hears head idle
    | hides => exact lit.hides head

theorem Lit.visible_iff (lit : l.Lit) :
    l.loader.visible = true ↔ l.flying = true ∨ l.hidings = 1 := by
  have one := lit.one
  have shows := lit.shows
  cases visible : l.loader.visible <;> cases busy : l.flying <;> simp_all

/-! ## After the end of a submission -/

theorem Handles.cycles (h : l.Handles now cue l') : l.cycles ≤ l'.cycles := by
  cases h with
  | begins | restarts => exact Nat.le_succ _
  | _ => exact Nat.le_refl _

theorem Step.cycles (h : l.Step now cue l') : l.cycles ≤ l'.cycles := by
  cases h with
  | handle _ handled => exact handled.cycles
  | notice _ handled => simpa using handled.cycles
  | _ => exact Nat.le_refl _

/-- The submission in flight has ended, and the loader is to be hidden at some time. -/
structure Fades (l : Lamp) (due now : Nat) : Prop where
  landed : l.flying = false
  fades : (l.loader.visible = true ∧ l.loader.hideTimer = some ⟨due, l.loader.generation⟩) ∨
    (l.loader.hideTimer = none ∧ due ≤ now)

/-- Between two beginnings of submissions a deed lets the loader fade, or it ends the submission. -/
theorem Step.fades {due : Nat} (h : l.Step now cue l') (lit : l.Lit) (same : l'.cycles = l.cycles)
    (fades : l.Fades due now) : l'.Fades due now := by
  obtain ⟨landed, fades⟩ := fades
  have grounded : ¬l.flying = true := by simp [landed]
  cases h with
  | still | straggle => exact ⟨landed, fades⟩
  | @fire t timer past =>
    refine ⟨landed, .inr ⟨rfl, ?_⟩⟩
    rcases fades with ⟨-, set⟩ | ⟨unset, -⟩
    · cases timer.symm.trans set
      exact past
    · cases timer.symm.trans unset
  | handle unnoticed handled =>
    cases handled with
    | still => exact ⟨landed, fades⟩
    | begins => simp [begin] at same
    | hears | hides => exact absurd rfl (unnoticed _)
    | lands busy | restarts busy => exact absurd busy grounded
  | notice head handled =>
    cases handled with
    | hears => exact ⟨landed, fades⟩
    | hides =>
      refine ⟨landed, .inr ⟨rfl, ?_⟩⟩
      rcases fades with ⟨-, set⟩ | ⟨-, past⟩
      · -- The timer would be a second one to hide this loader.
        have one := lit.one
        have noticed : 0 < l.notices.count l.loader.generation :=
          List.count_pos_iff.mpr (head ▸ List.mem_cons_self)
        simp only [hidings, set, Option.filter, beq_self_eq_true, if_true, Option.toList_some,
          List.length_singleton] at one
        split at one <;> omega
      · exact past

theorem Handles.dark (h : l.Handles now cue l') (same : l'.cycles = l.cycles)
    (visible : l'.loader.visible = true) : l.loader.visible = true := by
  cases h with
  | still | hears => exact visible
  | begins | restarts => simp [begin, land] at same
  | hides => cases visible
  | lands =>
    dsimp only [land] at visible
    split at visible
    · cases visible
    · exact visible

/-- A loader that is hidden stays so until the next submission begins. -/
theorem Step.dark (h : l.Step now cue l') (same : l'.cycles = l.cycles)
    (visible : l'.loader.visible = true) : l.loader.visible = true := by
  cases h with
  | still | straggle | fire => exact visible
  | handle _ handled => exact handled.dark same visible
  | notice _ handled => simpa using handled.dark same visible

/-- What hides a loader that shows: a notice that counts, or the end of a submission that nothing is
to be shown after. -/
theorem Step.hides (h : l.Step now cue l') (before : l.loader.visible = true)
    (after : l'.loader.visible = false) :
    l'.flying = false ∧ l'.cycles = l.cycles ∧
      (cue = .hide l.loader.generation ∨ cue = .land ∧ l.delay = 0) := by
  cases h with
  | still | straggle | fire => cases before.symm.trans after
  | handle unnoticed handled =>
    cases handled with
    | still => cases before.symm.trans after
    | begins | restarts => cases after
    | hears | hides => exact absurd rfl (unnoticed _)
    | lands =>
      refine ⟨rfl, rfl, .inr ⟨rfl, ?_⟩⟩
      by_contra delay
      have after : (l.land now).loader.visible = false := after
      rw [land] at after
      simp [delay, before] at after
  | notice head handled =>
    cases handled with
    | hears => cases before.symm.trans after
    | hides free => exact ⟨free, rfl, .inl rfl⟩

/-- With the end of a submission the loader begins to fade. -/
theorem Lit.fades_land (lit : l.Lit) (busy : l.flying = true) :
    (l.land now).Fades (now + l.delay) now := by
  have none : l.loader.hideTimer = none := by
    cases set : l.loader.hideTimer with
    | none => rfl
    | some t =>
      have counted := lit.hidings_flying busy
      simp [hidings, set, lit.timer t set, Option.filter] at counted
  refine ⟨rfl, ?_⟩
  by_cases delay : l.delay = 0
  · exact .inr (by simp [Lamp.land, delay, none])
  · exact .inl (by simp [Lamp.land, delay, lit.shows busy])

end Lamp

/-! ## The snapshot that shows the end -/

namespace Scene

variable {s s' : Scene} {now : Nat} {p : Pending} {failure : Option SubmitError}

/-- With no delay the loader is hidden in the snapshot that shows the end of a submission. -/
theorem settlement_dark (turn : s.settlement now p failure = .goesOn s')
    (delay : s.form.setup.loaderDelay = 0) (busy : s.form.published.phase = .submitting) :
    ∃ x : Snapshot, x.phase = (if failure.isNone then .settledOk else .settledError) ∧
      x.showLoader = false ∧ Turn.Publishes s [x] (.goesOn s') := by
  unfold settlement at turn
  obtain ⟨s₁, answered, published⟩ := Turn.andThen_eq_goesOn turn
  have told : s₁.form.lamp = (s.landed p.cycle failure).form.lamp ∧
      s₁.form.display = s.form.display := by
    cases failure with
    | none =>
      have answered : (s.landed p.cycle none).acknowledge p _ = .goesOn s₁ := answered
      have unshown := ((s.landed p.cycle none).acknowledge_prepares p
        s.form.changedDuringSubmit).unshown
      rw [answered] at unshown
      exact ⟨(acknowledge_remote lamp_remote _ _ _).goesOn answered, unshown⟩
    | some e =>
      have answered : (s.landed p.cycle (some e)).reject p e = .goesOn s₁ := answered
      have unshown := ((s.landed p.cycle (some e)).reject_prepares p e).unshown
      rw [answered] at unshown
      exact ⟨(reject_remote lamp_remote _ _ _).goesOn answered, unshown⟩
  have cleared := s₁.cleared_lamp now
  rw [told.1] at cleared
  generalize rest : s₁.releaseToken.scheduleLoaderHide now = s₂ at published cleared
  have display : s₂.form.display = s.form.display := by
    rw [← rest, scheduleLoaderHide_display, releaseToken_display, told.2]
  have dark : s₂.form.loader.visible = false := by
    have visible := congrArg (fun l => l.loader.visible) cleared
    simpa [Form.lamp, Lamp.land, landed, update, log, Form.log, delay] using visible
  have new : s₂.form.snapshot (if failure.isNone then .settledOk else .settledError) ≠
      s₂.form.published := fun same => by
    have before : s₂.form.published = s.form.published := congrArg Display.published display
    have phase := congrArg Snapshot.phase (same.trans before)
    rw [busy] at phase
    cases failure <;> cases phase
  refine ⟨s₂.form.snapshot (if failure.isNone then .settledOk else .settledError), rfl,
    by simp [Form.snapshot, dark], ?_⟩
  rw [← published]
  have silent : Turn.Publishes s [] (.goesOn s₂) := .aside display
  exact silent.andThen (.news new)

theorem handleSettled_dark (turn : s.handle now (.settled p.cycle failure) = .goesOn s')
    (flight : s.form.pending = some p) (delay : s.form.setup.loaderDelay = 0)
    (busy : s.form.published.phase = .submitting) :
    ∃ (x : Snapshot) (xs : List Snapshot),
      x.phase = (if failure.isNone then .settledOk else .settledError) ∧ x.showLoader = false ∧
      Turn.Publishes s (x :: xs) (.goesOn s') := by
  have turn : s.handleSettled now p.cycle failure = .goesOn s' := turn
  rw [s.handleSettled_eq now flight] at turn
  cases ended : s.settlement now p failure with
  | falls =>
    rw [ended] at turn
    cases turn
  | goesOn s₁ =>
    obtain ⟨x, phase, dark, first⟩ := settlement_dark ended delay busy
    rw [ended, ← Turn.goOn_eq] at turn
    have after : Turn.Shows (.goesOn s') s₁ := by
      rw [← turn, Turn.andThen]
      split
      · exact (startSubmission_shows _ _ _).since rfl
      · exact publishCurrent_shows _
    obtain ⟨xs, next⟩ := after
    exact ⟨x, xs, phase, dark, .andThen first next⟩

end Scene

/-! ## Along a course -/

section

variable {c : FormConfig} {now : Nat} {guard : UnloadGuard} {a b m n : Moment} {d : Deed}
  {log earlier later : Log}

theorem Form.lamp_hidings (f : Form) : f.lamp.hidings = f.hidings := by
  simp [Lamp.hidings, Form.hidings, Form.lamp, List.count_filterMap]

theorem Course.lit (course : Course (.opening c now guard) log m) (alive : m.form.alive = true) :
    m.form.lamp.Lit := by
  induction course with
  | here =>
    have lamp : (Moment.opening c now guard).form.lamp = (Form.make c now).lamp :=
      (Scene.publishCurrent_remote Scene.lamp_remote _).goesOn (Moment.land_alive alive)
    rw [lamp]
    exact ⟨rfl, nofun, nofun, nofun, rfl⟩
  | next _ done ih =>
    exact (Moment.perform?_lamp done alive).lit (ih (Moment.perform?_alive done alive))

theorem Course.cycles_le (course : Course a log m) (alive : m.form.alive = true) :
    a.form.cycles ≤ m.form.cycles := by
  induction course with
  | here => exact Nat.le_refl _
  | next _ done ih =>
    exact (ih (Moment.perform?_alive done alive)).trans (Moment.perform?_lamp done alive).cycles

/-- What deeds keep that begin no submission. -/
theorem Course.keeps_cycle {P : Moment → Prop} (before : Course (.opening c now guard) earlier a)
    (course : Course a later m) (alive : m.form.alive = true) (same : m.form.cycles = a.form.cycles)
    (step : ∀ {x y : Moment} {d : Deed}, (x, d) ∈ later → x.form.lamp.Lit →
      x.perform? d = some y → x.form.lamp.Step x.now (x.cue d) y.form.lamp →
      y.form.cycles = x.form.cycles → P x → P y)
    (first : P a) : P m := by
  induction course with
  | here => exact first
  | next course done ih =>
    have living := Moment.perform?_alive done alive
    have lamp := Moment.perform?_lamp done alive
    have first_le := course.cycles_le living
    have last_le : _ ≤ _ := lamp.cycles
    simp only [Form.lamp] at last_le
    refine step List.mem_cons_self ((before.append course).lit living) done lamp (by omega)
      (ih living (by omega) fun among => step (List.mem_cons_of_mem _ among))

/-- After the end of a submission the loader fades as long as no other one begins. -/
theorem Course.fades (before : Course (.opening c now guard) earlier a) {due : Nat}
    (course : Course a later m) (alive : m.form.alive = true) (same : m.form.cycles = a.form.cycles)
    (first : a.form.lamp.Fades due a.now) : m.form.lamp.Fades due m.now := by
  refine before.keeps_cycle (P := fun m => m.form.lamp.Fades due m.now) course alive same ?_ first
  intro x y d _ lit done lamp same fades
  obtain ⟨landed, fades⟩ := lamp.fades lit same fades
  have later := Moment.perform?_later done
  exact ⟨landed, fades.imp_right fun ⟨unset, past⟩ => ⟨unset, past.trans later⟩⟩

/-- On a punctual clock the loader does not show any longer. -/
theorem Course.fades_punctual (before : Course (.opening c now guard) earlier a) {due : Nat}
    (course : Course a later m) (punctual : later.Punctual) (alive : m.form.alive = true)
    (same : m.form.cycles = a.form.cycles) (first : a.form.lamp.Fades due a.now)
    (early : a.now ≤ due) (visible : m.form.loader.visible = true) : m.now ≤ due := by
  refine (before.keeps_cycle (P := fun m => m.form.lamp.Fades due m.now ∧
    (m.form.loader.visible = true → m.now ≤ due)) course alive same ?_ ⟨first, fun _ => early⟩).2
      visible
  rintro x y d among lit done lamp same ⟨fades, early⟩
  have step := lamp.fades lit same fades
  have later := Moment.perform?_later done
  refine ⟨⟨step.landed, step.fades.imp_right fun ⟨unset, past⟩ => ⟨unset, past.trans later⟩⟩,
    fun visible => ?_⟩
  have shows := lamp.dark same visible
  by_cases passes : ∃ ms, d = .pass ms
  · obtain ⟨ms, rfl⟩ := passes
    have waits : x.Waits ms := punctual _ among ms rfl
    rw [Moment.perform?_pass done]
    rcases fades.fades with ⟨-, set⟩ | ⟨unset, -⟩
    · exact waits.hide _ set
    · -- Nothing is left to hide it, so it does not show.
      have one : x.form.lamp.hidings = 1 :=
        (lit.visible_iff.mp shows).resolve_left (by simp [fades.landed])
      have unset : x.form.loader.hideTimer = none := unset
      simp [Lamp.hidings, Form.lamp, unset, waits.unheard] at one
  · rw [Moment.perform?_time done fun ms eq => passes ⟨ms, eq⟩]
    exact early shows

theorem Course.loaderDelay (course : Course (.opening c now guard) log m)
    (alive : m.form.alive = true) : m.form.setup.loaderDelay = c.loaderDelay :=
  congrArg FormSetup.loaderDelay (course.setup alive)

/-- The end of the submission in flight, if the next one does not begin with it. -/
theorem Moment.perform?_land {p : Pending} {failure : Option SubmitError}
    (done : n.perform? d = some b) (alive : b.form.alive = true) (flight : n.form.pending = some p)
    (handles : n.act d = .handles (.settled p.cycle failure)) (same : b.form.cycles = n.form.cycles) :
    b.form.lamp = n.form.lamp.land n.now := by
  have lamp := perform?_lamp done alive
  have cue : n.cue d = .land := by simp [cue_of_handles handles, Form.cue, flight]
  rw [cue] at lamp
  cases lamp with
  | handle _ handled =>
    generalize landed : b.form.lamp = l at handled ⊢
    cases handled with
    | lands => rfl
    | restarts =>
      have counted : b.form.cycles = n.form.cycles + 1 := congrArg Lamp.cycles landed
      omega

/-- What the end of a submission shows first when there is no delay. -/
theorem Moment.perform?_dark {p : Pending} {failure : Option SubmitError}
    (before : Course (.opening c now guard) earlier n) (done : n.perform? d = some b)
    (alive : b.form.alive = true) (flight : n.form.pending = some p)
    (handles : n.act d = .handles (.settled p.cycle failure)) (delay : c.loaderDelay = 0) :
    ∃ (x : Snapshot) (xs : List Snapshot) (rest : List Message),
      n.form.mailbox = .settled p.cycle failure :: rest ∧
      Turn.Publishes (n.scene.update fun f => { f with mailbox := rest }) (x :: xs)
        (.goesOn b.scene) ∧
      x.phase = (if failure.isNone then .settledOk else .settledError) ∧ x.showLoader = false ∧
      (c.observer.isSome = true → b.form.shown = xs.reverse ++ x :: n.form.shown) := by
  obtain ⟨rest, mailbox, turn⟩ := handles_goesOn done handles alive
  have living := perform?_alive done alive
  have busy : n.form.published.phase = .submitting := by
    have step : n.form.InStep := before.in_step living fun first =>
      Scene.publishCurrent_inStep _ _ (land_alive first)
    rw [step]
    simp [Form.currentSnapshot, Form.snapshot, Form.phase, flight]
  obtain ⟨x, xs, phase, dark, publishes⟩ := Scene.handleSettled_dark turn flight
    ((before.loaderDelay living).trans delay) busy
  refine ⟨x, xs, rest, mailbox, publishes, phase, dark, fun observed => ?_⟩
  have watched : n.form.display.watched = c.observer.isSome :=
    before.keeps (P := fun m => m.form.display.watched = c.observer.isSome)
      (fun done same => (perform?_watched done).trans same) (opening_display c now guard).1
  have shown : b.form.shown = ((x :: xs).foldl .show n.form.display).shown :=
    congrArg Display.shown publishes.display.1
  rw [Display.foldl_show_shown _ _ (watched.trans observed), List.reverse_cons,
    List.append_assoc] at shown
  exact shown

/-! ## The main result -/

/-- The loader after a submission that ended at some time, when no other one has begun since. -/
structure Moment.LoaderFades (m : Moment) (ended delay : Nat) (since : Log) : Prop where
  stays : m.now < ended + delay → m.form.loader.visible = true
  goes : ended + delay ≤ m.now → m.form.mailbox = [] →
    (∀ t, m.form.loader.hideTimer = some t → m.now < t.due) → m.form.loader.visible = false
  punctual : since.Punctual → ended + delay < m.now → m.form.loader.visible = false
  atOnce : delay = 0 → m.form.loader.visible = false

theorem Course.loaderFades {p : Pending} {failure : Option SubmitError}
    (course : Course (.opening c now guard) (later ++ (n, d) :: earlier) m)
    (alive : m.form.alive = true) (flight : n.form.pending = some p)
    (handles : n.act d = .handles (.settled p.cycle failure)) (same : m.form.cycles = n.form.cycles) :
    m.LoaderFades n.now c.loaderDelay later := by
  obtain ⟨b, before, done, after⟩ := course.split
  have living := after.alive_before alive
  have earlier := Moment.perform?_alive done living
  have first : n.form.cycles ≤ b.form.cycles := (Moment.perform?_lamp done living).cycles
  have last := after.cycles_le alive
  have landed := Moment.perform?_land done living flight handles (by omega)
  have delay : n.form.lamp.delay = c.loaderDelay := before.loaderDelay earlier
  have time : b.now = n.now := Moment.perform?_time done fun ms eq => by
    subst eq
    cases handles
  have ended : b.form.lamp.Fades (n.now + c.loaderDelay) b.now := by
    rw [landed, time, ← delay]
    exact (before.lit earlier).fades_land (by simp [Form.lamp, flight])
  have opened := before.next done
  have same : m.form.cycles = b.form.cycles := by omega
  have fades := opened.fades after alive same ended
  have lit := course.lit alive
  constructor
  · intro soon
    rcases fades.fades with ⟨visible, -⟩ | ⟨-, past⟩
    · exact visible
    · omega
  · intro past unheard asleep
    apply Bool.eq_false_iff.mpr
    intro visible
    have one : m.form.lamp.hidings = 1 := (lit.visible_iff.mp visible).resolve_left (by
      simp [fades.landed])
    rcases fades.fades with ⟨-, set⟩ | ⟨unset, -⟩
    · have awake : m.now < n.now + c.loaderDelay := asleep _ set
      omega
    · have unset : m.form.loader.hideTimer = none := unset
      simp [Lamp.hidings, Form.lamp, unset, unheard] at one
  · intro punctual past
    apply Bool.eq_false_iff.mpr
    intro visible
    have early := opened.fades_punctual after punctual alive same ended (by omega) visible
    omega
  · intro none
    apply Bool.eq_false_iff.mpr
    refine opened.keeps_cycle (P := fun m => m.form.loader.visible ≠ true) after alive same
      (fun _ _ _ lamp same hidden visible => hidden (lamp.dark same visible)) ?_
    have dark : b.form.loader.visible = false := by
      have visible := congrArg (fun l => l.loader.visible) landed
      simpa [Form.lamp, Lamp.land, show n.form.setup.loaderDelay = 0 from delay.trans none]
        using visible
    simp [dark]

/-- What hides the loader bears the number of the last submission, which has ended. -/
theorem Course.hides (before : Course (.opening c now guard) earlier n)
    (done : n.perform? d = some b) (alive : b.form.alive = true)
    (visible : n.form.loader.visible = true) (hidden : b.form.loader.visible = false) :
    b.form.pending = none ∧ b.form.cycles = n.form.cycles ∧
      (n.act d = .handles (.hideLoader n.form.cycles) ∨
        c.loaderDelay = 0 ∧ ∃ failure, n.act d = .handles (.settled n.form.cycles failure)) := by
  have living := Moment.perform?_alive done alive
  have lit := before.lit living
  obtain ⟨landed, same, why⟩ := (Moment.perform?_lamp done alive).hides visible hidden
  refine ⟨by simpa [Form.lamp] using landed, same, ?_⟩
  rcases why with notice | ⟨land, delay⟩
  · rw [lit.generation] at notice
    exact .inl (Moment.cue_eq_hide notice)
  · obtain ⟨p, failure, flight, handles⟩ := Moment.cue_eq_land land
    have last : p.cycle = n.form.cycles :=
      (orderly before living).last p.regardless (by simp [Form.coordinator, flight])
    exact .inr ⟨(before.loaderDelay living).symm.trans delay, failure, last ▸ handles⟩

/-- The loader of a form that lives shows if a submission is in flight, or if exactly one timer or
message is still to hide it. When a submission has ended and no other one has begun since, it shows
for the delay after the end and then goes; without a delay it is hidden at once, and in the snapshot
that shows the end already. And only the end of the last submission hides it, or the notice that bears
the number of the last one. -/
theorem loader_shows_as_due (course : Course (.opening c now guard) log m)
    (alive : m.form.alive = true) :
    (m.form.loader.visible = true ↔ m.form.pending.isSome = true ∨ m.form.hidings = 1) ∧
    ∀ (later : Log) n d earlier, log = later ++ (n, d) :: earlier →
      (∀ p failure, n.form.pending = some p → n.act d = .handles (.settled p.cycle failure) →
        (m.form.cycles = n.form.cycles → m.LoaderFades n.now c.loaderDelay later) ∧
        (c.loaderDelay = 0 → ∃ b x xs rest, n.perform? d = some b ∧
          n.form.mailbox = .settled p.cycle failure :: rest ∧
          Turn.Publishes (n.scene.update fun f => { f with mailbox := rest }) (x :: xs)
            (.goesOn b.scene) ∧
          x.phase = (if failure.isNone then .settledOk else .settledError) ∧ x.showLoader = false ∧
          (c.observer.isSome = true → b.form.shown = xs.reverse ++ x :: n.form.shown))) ∧
      ∀ b, n.perform? d = some b → n.form.loader.visible = true → b.form.loader.visible = false →
        b.form.pending = none ∧ b.form.cycles = n.form.cycles ∧
          (n.act d = .handles (.hideLoader n.form.cycles) ∨
            c.loaderDelay = 0 ∧ ∃ failure, n.act d = .handles (.settled n.form.cycles failure)) := by
  constructor
  · have shows := (course.lit alive).visible_iff
    rwa [m.form.lamp_hidings] at shows
  rintro later n d earlier rfl
  obtain ⟨b, before, done, after⟩ := course.split
  have living := after.alive_before alive
  refine ⟨fun p failure flight handles => ⟨course.loaderFades alive flight handles, fun delay => ?_⟩,
    fun b' done' => ?_⟩
  · obtain ⟨x, xs, rest, shown⟩ := Moment.perform?_dark before done living flight handles delay
    exact ⟨b, x, xs, rest, done, shown⟩
  · cases Option.some.inj (done.symm.trans done')
    exact before.hides done living

/-- A delay of twenty, with a millisecond of it left, and when it is over. -/
theorem loader_shows_as_due_twenty :
    (∃ log m, Course (.opening { FormConfig.sample ⟨false, none⟩ .emptyObject with
        loaderDelay := 20 } 0 .new) log m ∧ m.now = 24 ∧ m.form.loader.visible = true ∧
      m.form.hidings = 1) ∧
    ∃ log m, Course (.opening { FormConfig.sample ⟨false, none⟩ .emptyObject with
        loaderDelay := 20 } 0 .new) log m ∧ m.now = 26 ∧ m.form.loader.visible = false := by
  constructor
  · obtain ⟨log, m, course, -, passed⟩ := Moment.course_of_test
      (.opening { FormConfig.sample ⟨false, none⟩ .emptyObject with loaderDelay := 20 } 0 .new)
      [.ask 0 .submit, .handle, .startCall 0 0, .pass 5, .endCall 0 0, .finishRun 0, .handle,
        .pass 19]
      (fun log m => m.form.alive && m.form.pending.isNone && decide (m.now = 24) &&
        log[1]?.any fun (x : Moment × Deed) => decide (x.1.now = 5) &&
          decide (m.form.cycles = x.1.form.cycles) && decide (x.1.cue x.2 = .land))
      (by decide +kernel)
    simp only [Bool.and_eq_true, Option.any_eq_true, Option.isNone_iff_eq_none,
      decide_eq_true_eq] at passed
    obtain ⟨⟨⟨alive, free⟩, now⟩, x, place, ⟨ended, same⟩, land⟩ := passed
    obtain ⟨p, failure, flight, handles⟩ := Moment.cue_eq_land land
    obtain ⟨shows, since⟩ := loader_shows_as_due course alive
    have fades := ((since _ _ _ _ (Log.around place)).1 p failure flight handles).1 same
    have visible := fades.stays (by rw [now, ended]; decide)
    exact ⟨log, m, course, now, visible, (shows.mp visible).resolve_left (by simp [free])⟩
  · obtain ⟨log, m, course, -, passed⟩ := Moment.course_of_test
      (.opening { FormConfig.sample ⟨false, none⟩ .emptyObject with loaderDelay := 20 } 0 .new)
      [.ask 0 .submit, .handle, .startCall 0 0, .pass 5, .endCall 0 0, .finishRun 0, .handle,
        .pass 20, .fireHide, .handle, .pass 1]
      (fun log m => m.form.alive && decide (m.now = 26) && decide (Log.Punctual (log.take 4)) &&
        log[4]?.any fun (x : Moment × Deed) => decide (x.1.now = 5) &&
          decide (m.form.cycles = x.1.form.cycles) && decide (x.1.cue x.2 = .land))
      (by decide +kernel)
    simp only [Bool.and_eq_true, Option.any_eq_true, decide_eq_true_eq] at passed
    obtain ⟨⟨⟨alive, now⟩, punctual⟩, x, place, ⟨ended, same⟩, land⟩ := passed
    obtain ⟨p, failure, flight, handles⟩ := Moment.cue_eq_land land
    obtain ⟨-, since⟩ := loader_shows_as_due course alive
    have fades := ((since _ _ _ _ (Log.around place)).1 p failure flight handles).1 same
    exact ⟨log, m, course, now, fades.punctual punctual (by rw [now, ended]; decide)⟩

end

end LiveForm
