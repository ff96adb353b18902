import Mathlib.Data.List.Chain
import LiveForm.Proofs.Coordinator.Step

/-!
# What the observer is called with

* `Display`: what is published, beside the calls of the observer;
* `Turn.Publishes`: which snapshots are published in a turn, one after another;
* `Display.Faithful`: the calls are the changes of what is published;
* `Scene.handle_shows`: a message is handled by acts that leave the display alone, and by
  publications of something new.
-/

set_option autoImplicit false

namespace LiveForm

/-- The calls of the observer, the last one first. -/
def Form.shown (f : Form) : List Snapshot :=
  f.history.filterMap fun
    | .published s => some s
    | _ => none

/-- What is published, and what of it the observer has been called with, if there is one. -/
structure Display where
  published : Snapshot
  shown : List Snapshot
  watched : Bool

def Form.display (f : Form) : Display := ⟨f.published, f.shown, f.observer.isSome⟩

/-- The display when another snapshot is published. -/
def Display.show (d : Display) (s : Snapshot) : Display :=
  { d with published := s, shown := if d.watched then s :: d.shown else d.shown }

/-- The snapshots that are published in a turn, one after another. A turn is made up of acts that
leave the display alone, and of publications of something else than what was published before. -/
inductive Turn.Publishes : Scene → List Snapshot → Turn → Prop where
  | aside {s : Scene} {t : Turn} (same : t.scene.form.display = s.form.display) : Publishes s [] t
  | news {s : Scene} {phase : FormPhase} (new : s.form.snapshot phase ≠ s.form.published) :
      Publishes s [s.form.snapshot phase] (s.publish phase)
  | andThen {s s' : Scene} {t : Turn} {xs ys : List Snapshot} (first : Publishes s xs (.goesOn s'))
      (next : Publishes s' ys t) : Publishes s (xs ++ ys) t

/-- Publishing something else shows it to the observer. -/
theorem Scene.publish_display {s : Scene} {phase : FormPhase}
    (new : s.form.snapshot phase ≠ s.form.published) :
    (s.publish phase).scene.form.display = s.form.display.show (s.form.snapshot phase) := by
  have display (shown : Snapshot) :
      ((s.update fun f => { f with published := shown }).observe shown).scene.form.display =
        s.form.display.show shown := by
    unfold observe
    split
    · rename_i unwatched
      have unwatched : s.form.observer = none := unwatched
      simp [Form.display, Display.show, unwatched, Turn.scene, update, Form.shown]
    · rename_i callback watched
      have watched : s.form.observer = some callback := watched
      dsimp only
      split <;> simp [Form.display, Display.show, watched, Turn.scene, update, Form.shown, log, Form.log]
  unfold publish
  dsimp only
  rw [if_neg new]
  exact display _

theorem Display.foldl_show_published (d : Display) (xs : List Snapshot) :
    (xs.foldl .show d).published = xs.getLastD d.published := by
  induction xs generalizing d with
  | nil => rfl
  | cons x xs ih => exact (ih (d.show x)).trans (List.getLastD_cons ..).symm

theorem Display.foldl_show_watched (d : Display) (xs : List Snapshot) :
    (xs.foldl .show d).watched = d.watched := by
  induction xs generalizing d with
  | nil => rfl
  | cons x xs ih => exact ih (d.show x)

theorem Display.foldl_show_shown (d : Display) (xs : List Snapshot) (watched : d.watched = true) :
    (xs.foldl .show d).shown = xs.reverse ++ d.shown := by
  induction xs generalizing d with
  | nil => rfl
  | cons x xs ih =>
    have shown : (d.show x).shown = x :: d.shown := if_pos watched
    rw [List.foldl_cons, ih (d.show x) watched, shown, List.reverse_cons, List.append_assoc]
    rfl

theorem chain_append {x : Snapshot} {xs ys : List Snapshot} (first : (x :: xs).IsChain (· ≠ ·))
    (next : (xs.getLastD x :: ys).IsChain (· ≠ ·)) : (x :: (xs ++ ys)).IsChain (· ≠ ·) := by
  induction xs generalizing x with
  | nil => exact next
  | cons y xs ih =>
    obtain ⟨differ, rest⟩ := List.isChain_cons_cons.mp first
    rw [List.getLastD_cons] at next
    exact List.isChain_cons_cons.mpr ⟨differ, ih rest next⟩

/-- A turn changes the display as its publications do, each of which differs from the one before. -/
theorem Turn.Publishes.display {s : Scene} {xs : List Snapshot} {t : Turn}
    (h : Turn.Publishes s xs t) :
    t.scene.form.display = xs.foldl .show s.form.display ∧
      (s.form.published :: xs).IsChain (· ≠ ·) := by
  induction h with
  | aside same => exact ⟨same, .singleton _⟩
  | news new =>
    exact ⟨Scene.publish_display new, List.isChain_cons_cons.mpr ⟨new.symm, .singleton _⟩⟩
  | @andThen s s' t xs ys _ _ first next =>
    have between : s'.form.display = xs.foldl .show s.form.display := first.1
    constructor
    · rw [next.1, between, List.foldl_append]
    · have last := congrArg Display.published between
      rw [Display.foldl_show_published] at last
      have last : s'.form.published = xs.getLastD s.form.published := last
      exact chain_append first.2 (last ▸ next.2)

/-- The calls of the observer are the changes of what is published, from the blank state on: no two
of them in a row are the same, and the last one is of what is published. -/
def Display.Faithful (d : Display) : Prop :=
  d.watched = true → (d.shown ++ [Snapshot.blank]).head? = some d.published ∧
    (d.shown ++ [Snapshot.blank]).IsChain (· ≠ ·)

theorem Display.Faithful.foldl {d : Display} {xs : List Snapshot} (h : d.Faithful)
    (chain : (d.published :: xs).IsChain (· ≠ ·)) : (xs.foldl .show d).Faithful := by
  induction xs generalizing d with
  | nil => exact h
  | cons x xs ih =>
    obtain ⟨differ, rest⟩ := List.isChain_cons_cons.mp chain
    refine ih (d := d.show x) (fun watched => ?_) rest
    obtain ⟨head, before⟩ := h watched
    have shown : (d.show x).shown = x :: d.shown := if_pos watched
    rw [shown, List.cons_append]
    refine ⟨rfl, List.isChain_cons.mpr ⟨fun y first => ?_, before⟩⟩
    rw [head] at first
    cases first
    exact differ.symm

/-! ## What a turn publishes -/

/-- A turn publishes in this way, whatever it is. -/
def Turn.Shows (t : Turn) (s : Scene) : Prop := ∃ xs, Turn.Publishes s xs t

namespace Turn.Shows

variable {t : Turn} {s s' : Scene} {act : Scene → Turn}

theorem aside (same : t.scene.form.display = s.form.display) : t.Shows s := ⟨[], .aside same⟩

theorem andThen (h : t.Shows s) (next : ∀ s', (act s').Shows s') : (t.andThen act).Shows s := by
  cases t with
  | goesOn s' =>
    obtain ⟨xs, first⟩ := h
    obtain ⟨ys, next⟩ := next s'
    exact ⟨xs ++ ys, .andThen first next⟩
  | falls => exact h

/-- An act after others that have left the display alone. -/
theorem since (h : t.Shows s') (same : s'.form.display = s.form.display) : t.Shows s := by
  obtain ⟨xs, h⟩ := h
  exact ⟨[] ++ xs, .andThen (.aside (t := .goesOn s') same) h⟩

end Turn.Shows

namespace Scene

variable (s : Scene) (now : Nat)

theorem publish_shows (phase : FormPhase) : (s.publish phase).Shows s := by
  by_cases same : s.form.snapshot phase = s.form.published
  · refine .aside ?_
    unfold publish
    dsimp only
    rw [if_pos same]
    rfl
  · exact ⟨_, .news same⟩

theorem publishCurrent_shows : s.publishCurrent.Shows s := s.publish_shows _

theorem notify_display (key : MessageKey) (detail : String) :
    (s.notify key detail).scene.form.display = s.form.display := by
  unfold notify
  dsimp only
  split <;> rfl

theorem reportInvalid_display (errors : FieldErrors) :
    (s.reportInvalid errors).scene.form.display = s.form.display := by
  unfold reportInvalid
  split
  · rfl
  · dsimp only
    split <;> rfl

theorem answerAll_display (tickets : List Ticket) (reply : Reply) :
    (s.answerAll tickets reply).form.display = s.form.display := by
  unfold answerAll
  induction tickets generalizing s with
  | nil => rfl
  | cons t rest ih => exact ih (s.answer t reply)

theorem runHook_display (path : FieldPath) (value : Json) :
    (s.runHook path value).form.display = s.form.display := by
  unfold runHook
  split <;> rfl

theorem putStore_display (store : Option Store) :
    (s.putStore store).scene.form.display = s.form.display := by
  unfold putStore
  split <;> rfl

theorem noteChanged_display (path : FieldPath) :
    (s.noteChanged path).form.display = s.form.display := by
  unfold noteChanged update
  dsimp only
  split <;> rfl

theorem post_display (f : Form) (m : Message) : (f.post m).display = f.display := by
  unfold Form.post
  split <;> rfl

theorem requestSubmit_display : (s.requestSubmit now).form.display = s.form.display := by
  unfold requestSubmit update
  dsimp only
  split
  · exact post_display _ _
  · rfl

theorem defer_display (trigger : Trigger) (waiters : List Ticket) :
    (s.defer trigger waiters).form.display = s.form.display := by
  unfold defer update
  dsimp only
  split <;> rfl

theorem releaseToken_display : s.releaseToken.form.display = s.form.display := by
  unfold releaseToken
  split <;> rfl

theorem scheduleLoaderHide_display :
    (s.scheduleLoaderHide now).form.display = s.form.display := by
  unfold scheduleLoaderHide update
  dsimp only
  split <;> rfl

theorem beginCycle_shows (trigger : Trigger) (waiters : List Ticket) :
    (s.beginCycle trigger waiters).Shows s := by
  unfold beginCycle
  exact Turn.Shows.andThen ((publish_shows _ _).since rfl) fun _ => .aside rfl

theorem halt_shows (trigger : Trigger) (waiters : List Ticket) (errors : FieldErrors) :
    (s.halt trigger waiters errors).Shows s := by
  unfold halt
  refine Turn.Shows.andThen ((Turn.Shows.aside (reportInvalid_display _ _)).since rfl) fun s₁ => ?_
  refine Turn.Shows.andThen ((publish_shows _ _).since ?_) publishCurrent_shows
  exact answerAll_display _ _ _

theorem startSubmission_shows (trigger : Trigger) (waiters : List Ticket) :
    (s.startSubmission trigger waiters).Shows s := by
  unfold startSubmission
  dsimp only
  split
  · exact s.beginCycle_shows trigger waiters
  · exact s.halt_shows trigger waiters _

theorem handleFieldChanged_shows (path : FieldPath) (value : Json) :
    (s.handleFieldChanged now path value).Shows s := by
  refine (Turn.Shows.aside ?_).andThen fun s₁ => (publishCurrent_shows _).since ?_
  · rw [putStore_display, runHook_display]
  · split
    · rw [requestSubmit_display, noteChanged_display]
    · exact noteChanged_display _ _

theorem handleSetValue_shows (path : FieldPath) (value : Json) (dirty : Option Bool) :
    (s.handleSetValue now path value dirty).Shows s := by
  refine (Turn.Shows.aside ?_).andThen fun s₁ => (publishCurrent_shows _).since ?_
  · rw [putStore_display]
    split
    · exact noteChanged_display _ _
    · rfl
  · split
    · exact requestSubmit_display _ _
    · rfl

theorem handleRequest_shows (ticket : Ticket) (request : Request) :
    (s.handleRequest now ticket request).Shows s := by
  cases request with
  | register path field =>
    refine .aside ?_
    unfold handleRequest
    dsimp only
    split <;> rfl
  | setValue path value dirty =>
    exact (s.handleSetValue_shows now path value dirty).andThen fun _ => .aside rfl
  | reset values =>
    refine Turn.Shows.andThen (t := s.handleReset values) ?_ fun _ => .aside rfl
    exact (publishCurrent_shows _).since rfl
  | submit =>
    show (s.handleSubmit ticket).Shows s
    unfold handleSubmit
    split
    · exact .aside (s.defer_display _ _)
    · exact (startSubmission_shows _ _ _).since rfl
  | _ => exact .aside rfl

theorem handleDebounceElapsed_shows (generation : Nat) :
    (s.handleDebounceElapsed generation).Shows s := by
  unfold handleDebounceElapsed
  split
  · split
    · exact (publishCurrent_shows _).since (defer_display _ _ _)
    · exact (startSubmission_shows _ _ _).since rfl
  · exact .aside rfl

theorem acknowledge_shows (p : Pending) (changed : List FieldPath) :
    (s.acknowledge p changed).Shows s := by
  unfold acknowledge
  refine Turn.Shows.andThen (.aside (putStore_display _ _)) fun s₁ => .aside ?_
  exact answerAll_display _ _ _

theorem reject_shows (p : Pending) (e : SubmitError) : (s.reject p e).Shows s := by
  unfold reject
  refine Turn.Shows.andThen ((Turn.Shows.aside (notify_display _ _ _)).since rfl) fun s₁ =>
    .aside ?_
  exact answerAll_display _ _ _

theorem handleSettled_shows (cycle : Nat) (failure : Option SubmitError) :
    (s.handleSettled now cycle failure).Shows s := by
  unfold handleSettled
  split
  · exact .aside rfl
  · split
    · exact .aside rfl
    · dsimp only
      refine Turn.Shows.andThen ?_ fun s₁ => .andThen ((publish_shows _ _).since ?_) fun s₂ => ?_
      · cases failure with
        | none => exact (acknowledge_shows _ _ _).since rfl
        | some e => exact (reject_shows _ _ _).since rfl
      · rw [scheduleLoaderHide_display, releaseToken_display]
      · split
        · exact (startSubmission_shows _ _ _).since rfl
        · exact publishCurrent_shows _

theorem handle_shows (m : Message) : (s.handle now m).Shows s := by
  cases m with
  | ask ticket request => exact s.handleRequest_shows now ticket request
  | fieldChanged path value => exact s.handleFieldChanged_shows now path value
  | debounceElapsed generation => exact s.handleDebounceElapsed_shows generation
  | settled cycle failure => exact s.handleSettled_shows now cycle failure
  | loaded outcome =>
    cases outcome with
    | ok values =>
      refine Turn.Shows.andThen ?_ publishCurrent_shows
      exact ((Turn.Shows.aside (putStore_display _ _)).andThen fun _ => .aside rfl).since rfl
    | error message =>
      refine Turn.Shows.andThen ?_ publishCurrent_shows
      exact (Turn.Shows.aside (notify_display _ _ _)).since rfl
  | hideLoader generation =>
    show (s.handleHideLoader generation).Shows s
    unfold handleHideLoader
    split
    · exact (publishCurrent_shows _).since rfl
    · exact .aside rfl

end Scene

/-- The end of a form leaves the display alone. -/
theorem Turn.land_display (t : Turn) : t.land.form.display = t.scene.form.display := by
  cases t with
  | goesOn => rfl
  | falls s => exact s.releaseToken_display

end LiveForm
