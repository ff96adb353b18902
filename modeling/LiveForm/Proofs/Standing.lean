import Mathlib.Logic.Relation
import LiveForm.Proofs.Publication

/-!
# How a form stands

What a form tells of its submissions, what it holds for them, and how far it has come with the
message that it handles.

* `Form.standing` reads this off a form;
* `Stage`, `Standing.Move`: between two messages a form rests, and a message leads it from there
  back to rest, one move after another;
* `Turn.Passes`: the moves of a turn, the stage it comes to or falls at, and what it publishes on
  the way.
-/

set_option autoImplicit false

namespace LiveForm

/-- Holds of what is published, and of how submissions begin and end. -/
def Event.isMark : Event → Bool
  | .published _ => true
  | .began _ _ => true
  | .settled _ _ => true
  | .halted _ _ => true
  | _ => false

def Event.published? : Event → Option Snapshot
  | .published x => some x
  | _ => none

theorem Event.filter_published (x : Snapshot) (events : List Event) :
    (Event.published x :: events).filter isMark = .published x :: events.filter isMark := rfl

/-- The generation of the loader that a notice is to hide. -/
def Message.hides? : Message → Option Nat
  | .hideLoader generation => some generation
  | _ => none

/-- The marks are those of the history, the last one first, and the notices are those in the
mailbox that are to hide the loader. -/
structure Standing where
  flying : Bool
  held : Bool
  successful : Bool
  errors : FieldErrors
  changed : List FieldPath
  cycles : Nat
  lastCycle : Option Nat
  loader : Loader
  disabled : Bool
  watched : Bool
  published : Snapshot
  dirty : DirtyFields
  notices : List Nat
  marks : List Event

def Form.standing (f : Form) : Standing where
  flying := f.pending.isSome
  held := f.token.isSome
  successful := f.isSubmitSuccessful
  errors := f.errors
  changed := f.changedDuringSubmit
  cycles := f.cycles
  lastCycle := f.lastCycle
  loader := f.loader
  disabled := f.setup.disableLoader
  watched := f.observer.isSome
  published := f.published
  dirty := f.store.dirty
  notices := f.mailbox.filterMap Message.hides?
  marks := f.history.filter Event.isMark

namespace Standing

def begin (st : Standing) (trigger : Trigger) : Standing :=
  { st with
    flying := true
    held := true
    successful := false
    errors := []
    cycles := st.cycles + 1
    lastCycle := some (st.cycles + 1)
    loader := ⟨true, st.loader.generation + 1, none⟩
    marks := .began (st.cycles + 1) trigger :: st.marks }

def halt (st : Standing) (trigger : Trigger) (errors : FieldErrors) : Standing :=
  { st with successful := false, errors, marks := .halted trigger errors :: st.marks }

def land (st : Standing) (cycle : Nat) (failure : Option SubmitError) : Standing :=
  { st with flying := false, changed := [], marks := .settled cycle failure :: st.marks }

/-- The standing when a snapshot has been published, if it says something new. -/
def publish (st : Standing) (x : Snapshot) : Standing :=
  if x = st.published then st
  else { st with
    published := x
    marks := if st.watched then .published x :: st.marks else st.marks }

/-- The standing of a form that has ended. -/
def ended (st : Standing) : Standing :=
  { st with
    flying := false
    held := false
    changed := []
    loader := { st.loader with hideTimer := none }
    notices := [] }

/-- The calls of the observer, the last one first. -/
def shown (st : Standing) : List Snapshot := st.marks.filterMap Event.published?

/-- What a snapshot under a phase says of the standing. -/
structure Shows (st : Standing) (phase : FormPhase) (x : Snapshot) : Prop where
  phase : x.phase = phase
  submitting : x.isSubmitting = st.flying
  successful : x.isSubmitSuccessful = st.successful
  loader : x.showLoader = (st.loader.visible && !st.disabled)
  count : x.submitCount = UInt32.ofNat st.cycles
  errors : x.errors = st.errors
  last : x.lastSubmissionId = st.lastCycle.map submissionId
  isDirty : x.isDirty = !st.dirty.isEmpty
  dirtyPaths : x.dirtyPaths = st.dirty.paths.map FieldPath.display

end Standing

theorem Form.standing_shows (f : Form) (phase : FormPhase) :
    f.standing.Shows phase (f.snapshot phase) :=
  ⟨rfl, rfl, rfl, rfl, rfl, rfl, rfl, rfl, rfl⟩

theorem Form.standing_shown (f : Form) : f.standing.shown = f.shown := by
  unfold Standing.shown Form.standing Form.shown
  rw [List.filterMap_filter]
  apply List.filterMap_congr
  intro e _
  cases e <;> rfl

/-- The display is part of the standing. -/
theorem Form.display_of_standing {f g : Form} (same : g.standing = f.standing) :
    g.display = f.display := by
  have display (f : Form) :
      f.display = ⟨f.standing.published, f.standing.shown, f.standing.watched⟩ := by
    rw [f.standing_shown]
    rfl
  rw [display, display, same]

/-! ## Stages and moves -/

/-- What becomes of the dirty marks when values are written: they stay, a path is marked, or the values
are compared with a baseline. -/
inductive DirtyFields.Written (d : DirtyFields) : DirtyFields → Prop where
  | kept : d.Written d
  | marked (p : FieldPath) : d.Written (d.mark p)
  | compared (current baseline : Json) : d.Written (.diff current baseline)

/-- How far a form has come with a message. -/
inductive Stage where
  | resting
  /-- A submission has begun. -/
  | begun
  /-- Invalid fields have stopped a submission. -/
  | halted
  /-- That has been shown. -/
  | stopped
  /-- The submission in flight has ended. -/
  | landed (failure : Option SubmitError)
  /-- Those who waited for it have been told. -/
  | judged (failure : Option SubmitError)
  /-- Nothing is held for it any more. -/
  | cleared (failure : Option SubmitError)
  /-- Its end has been shown. -/
  | shown

namespace Stage

/-- The next submission may begin or be stopped here. -/
def Free (st : Standing) : Stage → Prop
  | .resting => st.flying = false
  | .shown => True
  | _ => False

/-- Values are written here. A form falls though no callback fails if the write asks for an
impossible list. -/
def breaks : Stage → Bool
  | .resting => true
  | .landed none => true
  | _ => false

/-- The phase of a form that rests. -/
structure Rests (flying : Bool) (phase : FormPhase) : Prop where
  submitting : phase = .submitting ↔ flying = true
  notOk : phase ≠ .settledOk
  notError : phase ≠ .settledError

/-- The phases that are shown on the way, with the stage after each. -/
inductive Next (flying : Bool) : Stage → FormPhase → Stage → Prop where
  | begun : Next flying .begun .submitting .resting
  | halted : Next flying .halted .settledError .stopped
  | succeeded : Next flying (.cleared none) .settledOk .shown
  | failed {e : SubmitError} : Next flying (.cleared (some e)) .settledError .shown
  | resting {phase : FormPhase} (rests : Rests flying phase) : Next flying .resting phase .resting
  | stopped {phase : FormPhase} (rests : Rests flying phase) : Next flying .stopped phase .resting
  | shown {phase : FormPhase} (rests : Rests flying phase) : Next flying .shown phase .resting

end Stage

theorem Form.phase_rests (f : Form) : Stage.Rests f.pending.isSome f.phase where
  submitting := by
    unfold Form.phase
    split
    · simp_all
    · split <;> simp_all
  notOk := f.phase_unsettled.1
  notError := f.phase_unsettled.2

/-- What can happen to the standing, stage by stage, while a message is handled. -/
inductive Standing.Move : Stage × Standing → Stage × Standing → Prop where
  | notes {st : Standing} {changed : List FieldPath} (busy : st.flying = true) :
      Move (.resting, st) (.resting, { st with changed })
  | writes {stage : Stage} {st : Standing} {dirty : DirtyFields} (writing : stage.breaks = true)
      (written : st.dirty.Written dirty) : Move (stage, st) (stage, { st with dirty })
  | resets {st : Standing} {dirty : DirtyFields} (written : st.dirty.Written dirty) :
      Move (.resting, st) (.resting, { st with errors := [], changed := [], dirty })
  | hears {st : Standing} {generation : Nat} {rest : List Nat}
      (notice : st.notices = generation :: rest)
      (idle : generation ≠ st.loader.generation ∨ st.flying = true) :
      Move (.resting, st) (.resting, { st with notices := rest })
  | hides {st : Standing} {rest : List Nat} (notice : st.notices = st.loader.generation :: rest)
      (free : st.flying = false) :
      Move (.resting, st) (.resting, { st with
        notices := rest
        loader := { st.loader with visible := false, hideTimer := none } })
  | begins {stage : Stage} {st : Standing} {trigger : Trigger} (free : stage.Free st) :
      Move (stage, st) (.begun, st.begin trigger)
  | halts {stage : Stage} {st : Standing} {trigger : Trigger} {errors : FieldErrors}
      (free : stage.Free st) (invalid : errors ≠ []) :
      Move (stage, st) (.halted, st.halt trigger errors)
  | lands {st : Standing} {cycle : Nat} {failure : Option SubmitError} (busy : st.flying = true) :
      Move (.resting, st) (.landed failure, st.land cycle failure)
  | judges {st : Standing} {failure : Option SubmitError} :
      Move (.landed failure, st) (.judged failure, { st with successful := failure.isNone })
  | clears {st : Standing} {failure : Option SubmitError} {loader : Loader}
      (dims : loader.visible = false ∨
        ∃ due, loader.hideTimer = some ⟨due, loader.generation⟩) :
      Move (.judged failure, st) (.cleared failure, { st with held := false, loader })
  | shows {stage stage' : Stage} {phase : FormPhase} {st : Standing} {x : Snapshot}
      (next : stage.Next st.flying phase stage') (seen : st.Shows phase x) :
      Move (stage, st) (stage', st.publish x)

abbrev Standing.Path : Stage × Standing → Stage × Standing → Prop :=
  Relation.ReflTransGen Standing.Move

/-- What every move keeps holds at the end of a path. -/
theorem Standing.Path.keeps {P : Stage → Standing → Prop} {x y : Stage × Standing}
    (path : Standing.Path x y) (move : ∀ {x y}, Standing.Move x y → P x.1 x.2 → P y.1 y.2)
    (first : P x.1 x.2) : P y.1 y.2 := by
  induction path with
  | refl => exact first
  | tail _ last ih => exact move last ih

/-! ## Turns -/

namespace Callback

/-- The call made last has failed. -/
def hasFailed (c : Callback) : Bool := c.calls != 0 && c.failsAt == some c.calls

theorem hasFailed_called {c : Callback} (h : c.failsNext = true) : c.called.hasFailed = true := by
  have fails : c.failsAt = some (c.calls + 1) := by simpa [failsNext] using h
  simp [hasFailed, called, fails]

end Callback

/-- A callback of the host has failed. -/
def Form.failed (f : Form) : Bool :=
  f.notifier.hasFailed || f.observer.any Callback.hasFailed || f.onInvalid.any Callback.hasFailed

/-- Marks stay. -/
theorem Standing.Path.marks {x y : Stage × Standing} (path : Standing.Path x y) :
    x.2.marks <:+ y.2.marks := by
  have move {x y : Stage × Standing} (move : Standing.Move x y) : x.2.marks <:+ y.2.marks := by
    cases move with
    | notes | writes | resets | hears | hides | judges | clears => exact List.suffix_rfl
    | begins | halts | lands => exact List.suffix_cons _ _
    | shows =>
      unfold Standing.publish
      split
      · exact List.suffix_rfl
      · dsimp only
        split
        · exact List.suffix_cons _ _
        · exact List.suffix_rfl
  induction path with
  | refl => exact List.suffix_rfl
  | tail _ last ih => exact ih.trans (move last)

/-- A snapshot is taken on the way from `x` to a standing, when the marks of the history were some of
those at the end, and the dirty ones were these. -/
def Standing.Taken (x : Stage × Standing) (last : Standing) (shown : Snapshot) : Prop :=
  ∃ stage st phase stage', Standing.Path x (stage, st) ∧ st.marks <:+ last.marks ∧
    st.dirty = last.dirty ∧ Stage.Next st.flying stage phase stage' ∧ st.Shows phase shown

/-- The moves of a turn that starts at `x`, to a stage. If the form falls, it is a callback that has
failed, or values were to be written. -/
structure Turn.Moves (t : Turn) (x : Stage × Standing) (stage : Stage) : Prop where
  goes : ∀ s, t = .goesOn s → Standing.Path x (stage, s.form.standing)
  falls : ∀ s, t = .falls s → ∃ last, Standing.Path x (last, s.form.standing) ∧
    (s.form.failed = true ∨ last.breaks = true)

/-- A turn from `s` that publishes nothing. -/
structure Turn.Prepares (t : Turn) (s : Scene) (x : Stage × Standing) (stage : Stage) : Prop
    extends t.Moves x stage where
  unshown : t.scene.form.display = s.form.display

/-- A turn from `s`, and what it publishes on the way. -/
structure Turn.Passes (t : Turn) (s : Scene) (x : Stage × Standing) (stage : Stage) : Prop
    extends t.Moves x stage where
  publishes : ∃ xs, Turn.Publishes s xs t ∧
    ∀ shown ∈ xs, Standing.Taken x t.scene.form.standing shown

namespace Turn

variable {t : Turn} {x y : Stage × Standing} {stage stage' : Stage} {s s' : Scene}
  {act : Scene → Turn}

/-- However a turn ends, its moves lead there. -/
theorem Moves.path (h : t.Moves x stage) :
    ∃ last, Standing.Path x (last, t.scene.form.standing) := by
  cases t with
  | goesOn s' => exact ⟨stage, h.goes s' rfl⟩
  | falls s' =>
    obtain ⟨last, path, -⟩ := h.falls s' rfl
    exact ⟨last, path⟩

theorem Moves.goesOn (h : Standing.Path x (stage, s'.form.standing)) :
    (Turn.goesOn s').Moves x stage where
  goes _ eq := by cases eq; exact h
  falls _ eq := by cases eq

theorem Moves.since (h : t.Moves y stage) (before : Standing.Path x y) : t.Moves x stage where
  goes s eq := before.trans (h.goes s eq)
  falls s eq :=
    let ⟨last, path, reason⟩ := h.falls s eq
    ⟨last, before.trans path, reason⟩

theorem Moves.andThen (h : t.Moves x stage)
    (next : ∀ s', (act s').Moves (stage, s'.form.standing) stage') :
    (t.andThen act).Moves x stage' := by
  cases t with
  | goesOn s' => exact (next s').since (h.goes s' rfl)
  | falls s' => exact ⟨fun _ eq => (by cases eq), fun s' eq => by cases eq; exact h.falls s' rfl⟩

namespace Prepares

theorem goesOn (h : Standing.Path x (stage, s'.form.standing))
    (same : s'.form.display = s.form.display) : (Turn.goesOn s').Prepares s x stage :=
  ⟨.goesOn h, same⟩

/-- An act that leaves the standing alone. -/
theorem aside (same : t.scene.form.standing = s.form.standing)
    (reason : ∀ s', t = .falls s' → s'.form.failed = true ∨ stage.breaks = true) :
    t.Prepares s (stage, s.form.standing) stage where
  goes s' eq := by
    subst eq
    rw [← same]
    exact .refl
  falls s' eq := by
    subst eq
    rw [← same]
    exact ⟨stage, .refl, reason s' rfl⟩
  unshown := Form.display_of_standing same

/-- A turn after other acts that publish nothing. -/
theorem since (h : t.Prepares s' y stage) (before : Standing.Path x y)
    (same : s'.form.display = s.form.display) : t.Prepares s x stage :=
  ⟨h.toMoves.since before, h.unshown.trans same⟩

theorem after (h : t.Prepares s' (stage, s'.form.standing) stage')
    (same : s'.form.standing = s.form.standing) : t.Prepares s (stage, s.form.standing) stage' := by
  apply h.since
  · rw [same]
  · exact Form.display_of_standing same

theorem andThen (h : t.Prepares s x stage)
    (next : ∀ s', (act s').Prepares s' (stage, s'.form.standing) stage') :
    (t.andThen act).Prepares s x stage' := by
  refine ⟨h.toMoves.andThen fun s' => (next s').toMoves, ?_⟩
  cases t with
  | goesOn s' => exact (next s').unshown.trans h.unshown
  | falls s' => exact h.unshown

end Prepares

theorem Prepares.passes (h : t.Prepares s x stage) : t.Passes s x stage :=
  ⟨h.toMoves, [], .aside h.unshown, by simp⟩

namespace Passes

theorem goesOn (h : Standing.Path x (stage, s'.form.standing))
    (same : s'.form.display = s.form.display) : (Turn.goesOn s').Passes s x stage :=
  (Prepares.goesOn h same).passes

/-- A turn after acts that publish nothing. -/
theorem since (h : t.Passes s' y stage) (before : Standing.Path x y)
    (same : s'.form.display = s.form.display) : t.Passes s x stage where
  toMoves := h.toMoves.since before
  publishes := by
    obtain ⟨xs, publishes, taken⟩ := h.publishes
    refine ⟨[] ++ xs, .andThen (.aside (t := .goesOn s') same) publishes, fun shown among => ?_⟩
    obtain ⟨stage, st, phase, stage', first, here⟩ := taken shown among
    exact ⟨stage, st, phase, stage', before.trans first, here⟩

theorem after (h : t.Passes s' (stage, s'.form.standing) stage')
    (same : s'.form.standing = s.form.standing) : t.Passes s (stage, s.form.standing) stage' := by
  apply h.since
  · rw [same]
  · exact Form.display_of_standing same

/-- The dirty marks stay as they are once something has been published. -/
theorem andThen (h : t.Passes s x stage)
    (next : ∀ s', (act s').Passes s' (stage, s'.form.standing) stage')
    (keeps : ∀ s', (act s').Keeps s') : (t.andThen act).Passes s x stage' := by
  refine ⟨h.toMoves.andThen fun s' => (next s').toMoves, ?_⟩
  cases t with
  | falls s' => exact h.publishes
  | goesOn s' =>
    obtain ⟨xs, published, taken⟩ := h.publishes
    obtain ⟨ys, publishes, taken'⟩ := (next s').publishes
    obtain ⟨last, path⟩ := (next s').path
    have dirty : s'.form.standing.dirty = (act s').scene.form.standing.dirty :=
      (congrArg Store.dirty (keeps s').store).symm
    refine ⟨xs ++ ys, .andThen published publishes, fun shown among => ?_⟩
    rcases List.mem_append.mp among with before | after
    · obtain ⟨stage, st, phase, stage', here, marks, same, rest⟩ := taken shown before
      exact ⟨stage, st, phase, stage', here, marks.trans path.marks, same.trans dirty, rest⟩
    · obtain ⟨stage, st, phase, stage', here, rest⟩ := taken' shown after
      exact ⟨stage, st, phase, stage', (h.goes s' rfl).trans here, rest⟩

end Passes

/-- A turn that publishes nothing before others. -/
theorem Prepares.pass (h : t.Prepares s x stage)
    (next : ∀ s', (act s').Passes s' (stage, s'.form.standing) stage') :
    (t.andThen act).Passes s x stage' := by
  refine ⟨h.toMoves.andThen fun s' => (next s').toMoves, ?_⟩
  cases t with
  | goesOn s' => exact ((next s').since (h.goes s' rfl) h.unshown).publishes
  | falls s' => exact ⟨[], .aside h.unshown, by simp⟩

end Turn

end LiveForm
