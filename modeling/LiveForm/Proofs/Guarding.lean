import Mathlib.Data.List.Perm.Basic
import LiveForm.Proofs.Custody
import LiveForm.Proofs.SingleFlight

/-!
# The guard blocks while something is in flight

Forms that share a guard hold a token of it each while they submit, and tokens are taken outside of
forms too. Forms start, do their deeds and end in any order, and any call of the host may make one
fall in the middle of a message.

* `UnloadGuard.Holds`: which tokens are held;
* `Custody.Kept`: what a form does to the guard leaves the tokens of all others alone;
* `Ward.Step`: a guard with all who use it, one deed at a time;
* `guard_blocks_in_flight`: the tokens held are those taken outside and one for each submission in
  flight, and a form that has ended has given its tokens back for good.
-/

set_option autoImplicit false

namespace LiveForm

/-! ## The guard -/

/-- The tokens held have these ids. -/
structure UnloadGuard.Holds (g : UnloadGuard) (ids : List Nat) : Prop where
  all : (g.active.map Prod.fst).Perm ids
  once : ids.Nodup
  old : ∀ id ∈ ids, id < g.nextId

namespace UnloadGuard.Holds

variable {g : UnloadGuard} {ids ids' : List Nat} {id : Nat}

theorem perm (h : g.Holds ids) (same : ids.Perm ids') : g.Holds ids' where
  all := h.all.trans same
  once := same.nodup_iff.mp h.once
  old id inside := h.old id (same.mem_iff.mpr inside)

theorem acquire (h : g.Holds ids) (message : String) :
    (g.acquire message).Holds (g.nextId :: ids) where
  all := by
    rw [UnloadGuard.acquire, List.map_append]
    exact (List.perm_append_singleton _ _).trans (h.all.cons _)
  once := List.nodup_cons.mpr ⟨fun inside => Nat.lt_irrefl _ (h.old _ inside), h.once⟩
  old id inside := by
    rcases List.mem_cons.mp inside with rfl | inside
    · exact Nat.lt_succ_self _
    · exact Nat.lt_succ_of_lt (h.old id inside)

theorem release (h : g.Holds (id :: ids)) : (g.release id).Holds ids where
  all := by
    have fresh : id ∉ ids := (List.nodup_cons.mp h.once).1
    have others : (id :: ids).filter (fun i => decide (i ≠ id)) = ids := by
      rw [List.filter_cons_of_neg (by simp), List.filter_eq_self]
      intro i inside
      exact decide_eq_true fun same => fresh (same ▸ inside)
    have kept := h.all.filter fun i => decide (i ≠ id)
    rw [others, List.filter_map] at kept
    exact kept
  once := (List.nodup_cons.mp h.once).2
  old i inside := h.old i (List.mem_cons_of_mem _ inside)

theorem activeCount (h : g.Holds ids) : g.activeCount = ids.length := by
  rw [UnloadGuard.activeCount, ← h.all.length_eq, List.length_map]

theorem isBlocking (h : g.Holds ids) : g.isBlocking = true ↔ ids ≠ [] := by
  rw [← List.length_pos_iff, ← h.activeCount, UnloadGuard.activeCount, List.length_pos_iff]
  simp [UnloadGuard.isBlocking]

theorem mem (h : g.Holds ids) : id ∈ g.active.map Prod.fst ↔ id ∈ ids := h.all.mem_iff

end UnloadGuard.Holds

theorem UnloadGuard.new_holds : UnloadGuard.new.Holds [] := ⟨.refl _, .nil, nofun⟩

/-! ## One form -/

section

/- A form has begun with the token `own`, or with none, when the ids below `floor` had been given
out, and `others` are held by others. -/
variable {floor : Nat} {own : Option Nat} {others : List Nat}

namespace Custody

/-- The tokens held are the form's own and those of the others. If it is not the one that the form
began with, it has been given out since. -/
structure Kept (floor : Nat) (own : Option Nat) (others : List Nat) (c : Custody) : Prop where
  holds : c.guard.Holds (c.token.toList ++ others)
  later : floor ≤ c.guard.nextId
  fresh : ∀ id, c.token = some id → own = some id ∨ floor ≤ id

/-- There is a token just if a submission is in flight. -/
def Synced (c : Custody) : Prop := c.token.isSome = c.pending.isSome

end Custody

open Custody

/-- However a turn ends, the tokens are kept; and if it goes on, there is a token just if a
submission is in flight. -/
structure Turn.Guards (floor : Nat) (own : Option Nat) (others : List Nat) (t : Turn) : Prop where
  kept : t.scene.custody.Kept floor own others
  synced : ∀ s, t = .goesOn s → s.custody.Synced

namespace Turn.Guards

variable {t : Turn} {s : Scene} {act : Scene → Turn}

theorem goesOn (kept : s.custody.Kept floor own others) (synced : s.custody.Synced) :
    (Turn.goesOn s).Guards floor own others where
  kept := kept
  synced s' same := by
    cases same
    exact synced

theorem of_quiet (h : t.Quiet s) (kept : s.custody.Kept floor own others)
    (synced : s.custody.Synced) : t.Guards floor own others where
  kept := by
    have same : t.scene.custody = s.custody := h
    rw [same]
    exact kept
  synced s' same := by
    subst same
    rw [h.goes]
    exact synced

theorem andThen (h : t.Guards floor own others)
    (next : ∀ s' : Scene, s'.custody.Kept floor own others → s'.custody.Synced →
      (act s').Guards floor own others) : (t.andThen act).Guards floor own others := by
  cases t with
  | goesOn s' => exact next s' h.kept (h.synced s' rfl)
  | falls s' => exact ⟨h.kept, by rintro _ ⟨⟩⟩

/-- After an act that leaves alone what the form holds. -/
theorem after_quiet (h : t.Quiet s) (kept : s.custody.Kept floor own others)
    (next : ∀ s' : Scene, s'.custody = s.custody → (act s').Guards floor own others) :
    (t.andThen act).Guards floor own others := by
  cases t with
  | goesOn s' => exact next s' h
  | falls s' =>
    refine ⟨?_, by rintro _ ⟨⟩⟩
    have same : s'.custody = s.custody := h
    show s'.custody.Kept floor own others
    rw [same]
    exact kept

end Turn.Guards

namespace Scene

variable {s : Scene}

theorem releaseToken_kept (kept : s.custody.Kept floor own others) :
    s.releaseToken.custody.Kept floor own others ∧ s.releaseToken.custody.token = none ∧
      s.releaseToken.custody.pending = s.custody.pending := by
  have holds := kept.holds
  unfold releaseToken
  split
  · rename_i id token
    have token : s.custody.token = some id := token
    rw [token] at holds
    exact ⟨⟨holds.release, kept.later, nofun⟩, rfl, rfl⟩
  · rename_i token
    exact ⟨kept, token, rfl⟩

/-- A form that ends gives its token back. -/
theorem close_kept (kept : s.custody.Kept floor own others) :
    s.close.custody.Kept floor own others ∧ s.close.custody.Synced := by
  obtain ⟨⟨holds, later, fresh⟩, none, -⟩ := releaseToken_kept kept
  exact ⟨⟨holds, later, fresh⟩, congrArg Option.isSome none⟩

theorem begun_kept (kept : s.custody.Kept floor own others) (free : s.form.token = none)
    (trigger : Trigger) (waiters : List Ticket) :
    (s.begun trigger waiters).custody.Kept floor own others ∧
      (s.begun trigger waiters).custody.Synced := by
  have holds : s.guard.Holds others := by
    have holds := kept.holds
    rwa [show s.custody.token = none from free] at holds
  refine ⟨⟨holds.acquire _, Nat.le_succ_of_le kept.later, ?_⟩, rfl⟩
  intro id same
  cases same
  exact .inr kept.later

theorem startSubmission_guards (kept : s.custody.Kept floor own others)
    (synced : s.custody.Synced) (free : s.form.pending = none) (trigger : Trigger)
    (waiters : List Ticket) : (s.startSubmission trigger waiters).Guards floor own others := by
  have free : s.form.token = none := by
    have none : s.form.token.isSome = s.form.pending.isSome := synced
    simpa [free] using none
  unfold startSubmission
  dsimp only
  split
  · obtain ⟨⟨holds, later, fresh⟩, synced⟩ := begun_kept kept free trigger waiters
    obtain ⟨runs, ends⟩ := beginCycle_custody s trigger waiters
    constructor
    · rw [ends]
      exact ⟨holds, later, fresh⟩
    · intro s' same
      rw [same] at ends
      rw [show s'.custody = _ from ends]
      exact synced
  · exact .of_quiet (halt_quiet _ _ _ _) kept synced

variable (now : Nat)

theorem handleSettled_guards (kept : s.custody.Kept floor own others) (synced : s.custody.Synced)
    (cycle : Nat) (failure : Option SubmitError) :
    (s.handleSettled now cycle failure).Guards floor own others := by
  unfold handleSettled
  split
  · exact .goesOn kept synced
  · rename_i p flight
    split
    · exact .goesOn kept synced
    · have landed : (s.landed cycle failure).custody.Kept floor own others :=
        ⟨kept.holds, kept.later, kept.fresh⟩
      -- The token is given back after the outcome has been told, so until then they differ.
      refine Turn.Guards.after_quiet (s := s.landed cycle failure) ?_ landed ?_
      · cases failure with
        | none => exact acknowledge_quiet _ _ _
        | some e => exact reject_quiet _ _ _
      · intro s' told
        obtain ⟨given, none, pending⟩ := releaseToken_kept (told ▸ landed)
        have free : s'.releaseToken.custody.pending = .none := by
          rw [pending, told]
          rfl
        have shown := (s'.releaseToken.scheduleLoaderHide now).publish_quiet
          (if failure.isNone then .settledOk else .settledError)
        have shown := shown.since (scheduleLoaderHide_custody s'.releaseToken now)
        refine Turn.Guards.after_quiet shown given ?_
        intro s'' same
        have kept : s''.custody.Kept floor own others := same ▸ given
        have synced : s''.custody.Synced := by
          rw [same, Synced, none, free]
          rfl
        split
        · have free : s''.custody.pending = .none := same ▸ free
          exact startSubmission_guards (s := s''.update fun f => { f with deferred := .none })
            ⟨kept.holds, kept.later, kept.fresh⟩ synced free _ _
        · exact .of_quiet (publishCurrent_quiet _) kept synced

theorem handle_guards (kept : s.custody.Kept floor own others) (synced : s.custody.Synced)
    (m : Message) : (s.handle now m).Guards floor own others := by
  cases m with
  | fieldChanged path value => exact .of_quiet (handleFieldChanged_quiet _ _ _ _) kept synced
  | loaded outcome => exact .of_quiet (handleLoaded_quiet _ _) kept synced
  | hideLoader generation => exact .of_quiet (handleHideLoader_quiet _ _) kept synced
  | settled cycle failure => exact handleSettled_guards now kept synced cycle failure
  | debounceElapsed generation =>
    show (s.handleDebounceElapsed generation).Guards floor own others
    unfold handleDebounceElapsed
    split
    · split
      · exact .of_quiet ((publishCurrent_quiet _).since (defer_custody _ _ _)) kept synced
      · rename_i free
        have free : s.form.pending = none := by simpa using free
        exact startSubmission_guards (s := s.cancelDebounce) ⟨kept.holds, kept.later, kept.fresh⟩
          synced free _ _
    · exact .goesOn kept synced
  | ask ticket request =>
    have answered {t : Turn} (h : t.Guards floor own others) :
        (t.andThen fun s => .goesOn (s.answer ticket .done)).Guards floor own others :=
      h.andThen fun s' kept synced => .goesOn kept synced
    cases request with
    | setValue path value dirty =>
      exact answered (.of_quiet (handleSetValue_quiet _ _ _ _ _) kept synced)
    | reset values =>
      refine answered (.of_quiet (s.handleReset_quiet values) ?_ ?_)
      · exact ⟨kept.holds, kept.later, kept.fresh⟩
      · exact Eq.trans synced Option.isSome_map.symm
    | submit =>
      show (s.handleSubmit ticket).Guards floor own others
      unfold handleSubmit
      split
      · have same := defer_custody s .manual [ticket]
        exact .goesOn (same ▸ kept) (same ▸ synced)
      · rename_i free
        have free : s.form.pending = none := by simpa using free
        exact startSubmission_guards (s := s.cancelDebounce) ⟨kept.holds, kept.later, kept.fresh⟩
          synced free _ _
    | register path field =>
      show (s.handleRequest now ticket (.register path field)).Guards floor own others
      unfold handleRequest
      dsimp only
      split <;> exact .goesOn ⟨kept.holds, kept.later, kept.fresh⟩ synced
    | _ => exact .goesOn ⟨kept.holds, kept.later, kept.fresh⟩ synced

end Scene

theorem Turn.Guards.land {t : Turn} (h : t.Guards floor own others) :
    t.land.custody.Kept floor own others ∧ t.land.custody.Synced := by
  cases t with
  | goesOn s => exact ⟨h.kept, h.synced s rfl⟩
  | falls s => exact Scene.close_kept h.kept

/-- A deed leaves the tokens of others alone, and its form has a token just if a submission is in
flight. -/
theorem Moment.perform?_guards {a b : Moment} {d : Deed} (h : a.perform? d = some b)
    (notShared : ∀ g, d ≠ .share g) (kept : a.scene.custody.Kept floor own others)
    (synced : a.scene.custody.Synced) :
    b.scene.custody.Kept floor own others ∧ b.scene.custody.Synced := by
  by_cases handling : d = .handle
  · subst handling
    obtain ⟨m, rest, _, rfl⟩ := handle_eq_some h
    exact (Scene.handle_guards (s := a.scene.update fun f => { f with mailbox := rest }) a.now
      ⟨kept.holds, kept.later, kept.fresh⟩ synced m).land
  · by_cases closing : d = .close
    · subst closing
      simp only [perform?, Option.ite_none_right_eq_some, Option.some.injEq] at h
      obtain ⟨_, rfl⟩ := h
      exact Scene.close_kept kept
    · obtain ⟨guard, runs, custody, same⟩ := perform?_custody h handling closing
      obtain rfl := same notShared
      rw [custody]
      exact ⟨⟨kept.holds, kept.later, kept.fresh⟩, synced⟩

/-- A form that starts holds nothing. -/
theorem Moment.opening_guards (c : FormConfig) (now : Nat) {guard : UnloadGuard}
    (holds : guard.Holds others) :
    (Moment.opening c now guard).scene.custody.Kept guard.nextId none others ∧
      (Moment.opening c now guard).scene.custody.Synced := by
  refine Turn.Guards.land (.of_quiet (Scene.publishCurrent_quiet ⟨Form.make c now, guard⟩) ?_ rfl)
  exact ⟨holds, Nat.le_refl _, nofun⟩

end

/-! ## All who use a guard -/

/-- A guard, the forms that share it, and the ids of the tokens taken outside of forms. -/
structure Ward where
  guard : UnloadGuard
  members : List Moment
  outside : List Nat

/-- The moment of a form, with the guard as the others have left it. -/
def Moment.under (m : Moment) (guard : UnloadGuard) : Moment :=
  { m with scene := { m.scene with guard } }

def Deed.isShare : Deed → Bool
  | .share _ => true
  | _ => false

/-- What can happen next. A form that shares a guard does no deed of others. -/
inductive Move where
  | spawn (c : FormConfig) (now : Nat)
  | deed (member : Nat) (d : Deed)
  | acquire (message : String)
  | release (id : Nat)

/-- The tokens of forms. -/
def tokens (members : List Moment) : List Nat := members.filterMap fun m => m.form.token

theorem tokens_cons (m : Moment) (members : List Moment) :
    tokens (m :: members) = m.form.token.toList ++ tokens members := by
  unfold tokens
  cases token : m.form.token with
  | none => simp [token]
  | some id => simp [token]

namespace Ward

def empty : Ward := ⟨.new, [], []⟩

def perform? (w : Ward) : Move → Option Ward
  | .spawn c now =>
    let m := Moment.opening c now w.guard
    some { w with guard := m.scene.guard, members := w.members ++ [m] }
  | .deed i d =>
    if d.isShare then none
    else (w.members[i]?.bind fun m => (m.under w.guard).perform? d).map fun m =>
      { w with guard := m.scene.guard, members := w.members.set i m }
  | .acquire message =>
    some { w with guard := w.guard.acquire message, outside := w.guard.nextId :: w.outside }
  | .release id =>
    if id ∈ w.outside then
      some { w with guard := w.guard.release id, outside := w.outside.erase id }
    else none

/-- Moves lead from `w` to another state. -/
inductive Leads (w : Ward) : Ward → Prop where
  | here : Leads w w
  | next {a b : Ward} {move : Move} : Leads w a → a.perform? move = some b → Leads w b

theorem Leads.trans {w a b : Ward} (before : w.Leads a) (after : a.Leads b) : w.Leads b := by
  induction after with
  | here => exact before
  | next _ done ih => exact .next ih done

/-- Makes moves one after another. -/
def performAll? (w : Ward) : List Move → Option Ward
  | [] => some w
  | move :: rest => (w.perform? move).bind fun w => w.performAll? rest

theorem leads_of_performAll? {w w' : Ward} {moves : List Move}
    (h : w.performAll? moves = some w') : w.Leads w' := by
  induction moves generalizing w with
  | nil =>
    cases h
    exact .here
  | cons move rest ih =>
    obtain ⟨a, first, others⟩ := Option.bind_eq_some_iff.mp h
    exact (Leads.here.next first).trans (ih others)

/-- The tokens held are those of the forms and those taken outside. Each form is on a course, and has
a token just if a submission is in flight. -/
structure Sound (w : Ward) : Prop where
  holds : w.guard.Holds (tokens w.members ++ w.outside)
  each : ∀ m ∈ w.members, m.scene.custody.Synced ∧
    ∃ c now guard log, Course (.opening c now guard) log m

def token? (w : Ward) (i : Nat) : Option Nat := w.members[i]?.bind fun m => m.form.token

/-- From `w` to `w'` no token has changed hands: those that were given out before are held by whoever
held them. -/
structure Passes (w w' : Ward) : Prop where
  later : w.guard.nextId ≤ w'.guard.nextId
  tokens : ∀ i id, w'.token? i = some id → id < w.guard.nextId → w.token? i = some id
  outside : ∀ id ∈ w'.outside, id < w.guard.nextId → id ∈ w.outside

variable {w w' a b : Ward}

theorem Passes.refl (w : Ward) : w.Passes w := ⟨Nat.le_refl _, fun _ _ h _ => h, fun _ h _ => h⟩

theorem Passes.trans (h : a.Passes b) (h' : b.Passes w) : a.Passes w where
  later := Nat.le_trans h.later h'.later
  tokens i id held old := h.tokens i id (h'.tokens i id held (Nat.lt_of_lt_of_le old h.later)) old
  outside id held old := h.outside id (h'.outside id held (Nat.lt_of_lt_of_le old h.later)) old

/-- A form in its place, beside the others. -/
theorem tokens_perm {members : List Moment} {i : Nat} {m : Moment} (found : members[i]? = some m) :
    (tokens members).Perm (m.form.token.toList ++ tokens (members.eraseIdx i)) := by
  obtain ⟨inside, rfl⟩ := List.getElem?_eq_some_iff.mp found
  rw [← tokens_cons]
  exact (List.getElem_cons_eraseIdx_perm inside).symm.filterMap _

theorem tokens_set_perm {members : List Moment} {i : Nat} (inside : i < members.length)
    (m : Moment) : (tokens (members.set i m)).Perm
      (m.form.token.toList ++ tokens (members.eraseIdx i)) := by
  rw [← tokens_cons]
  exact (List.set_perm_cons_eraseIdx inside m).filterMap _

theorem perform?_deed {i : Nat} {d : Deed} (h : w.perform? (.deed i d) = some w') :
    ∃ m b, w.members[i]? = some m ∧ (∀ g, d ≠ .share g) ∧ (m.under w.guard).perform? d = some b ∧
      w' = { w with guard := b.scene.guard, members := w.members.set i b } := by
  simp only [perform?, Option.ite_none_left_eq_some, Option.map_eq_some_iff,
    Option.bind_eq_some_iff] at h
  obtain ⟨notShared, b, ⟨m, found, done⟩, rfl⟩ := h
  exact ⟨m, b, found, by rintro g rfl; exact notShared rfl, done, rfl⟩

theorem spawn_sound (sound : w.Sound) (c : FormConfig) (now : Nat)
    (h : w.perform? (.spawn c now) = some w') : w'.Sound ∧ w.Passes w' := by
  cases h
  have started := Moment.opening_guards c now sound.holds
  generalize opened : Moment.opening c now w.guard = m at started
  obtain ⟨kept, synced⟩ := started
  refine ⟨⟨?_, ?_⟩, kept.later, ?_, fun _ held _ => held⟩
  · refine kept.holds.perm ?_
    have last : (tokens (w.members ++ [m])).Perm (m.form.token.toList ++ tokens w.members) := by
      rw [← tokens_cons]
      exact (List.perm_append_singleton m w.members).filterMap _
    rw [← List.append_assoc]
    exact (last.append_right w.outside).symm
  · intro m' inside
    rcases List.mem_append.mp inside with old | new
    · exact sound.each m' old
    · rw [List.mem_singleton.mp new]
      exact ⟨synced, c, now, w.guard, [], opened ▸ .here⟩
  · intro i id held old
    unfold token? at held ⊢
    dsimp only at held
    by_cases inside : i < w.members.length
    · rwa [List.getElem?_append_left inside] at held
    · obtain ⟨m', found, token⟩ := Option.bind_eq_some_iff.mp held
      rw [List.getElem?_append_right (Nat.le_of_not_lt inside)] at found
      rw [List.mem_singleton.mp (List.mem_of_getElem? found)] at token
      rcases kept.fresh id token with none | new
      · cases none
      · exact absurd old (Nat.not_lt.mpr new)

theorem deed_sound (sound : w.Sound) {i : Nat} {d : Deed}
    (h : w.perform? (.deed i d) = some w') : w'.Sound ∧ w.Passes w' := by
  obtain ⟨m, b, found, notShared, done, rfl⟩ := perform?_deed h
  have inside := (List.getElem?_eq_some_iff.mp found).1
  obtain ⟨synced, c, now, guard, log, course⟩ := sound.each m (List.mem_of_getElem? found)
  have shared : (m.under w.guard).scene.custody.Kept w.guard.nextId m.form.token
      (tokens (w.members.eraseIdx i) ++ w.outside) := by
    refine ⟨?_, Nat.le_refl _, fun id held => .inl held⟩
    refine sound.holds.perm ?_
    rw [← List.append_assoc]
    exact (tokens_perm found).append_right w.outside
  obtain ⟨kept, synced⟩ := Moment.perform?_guards done notShared shared synced
  refine ⟨⟨?_, ?_⟩, kept.later, ?_, fun _ held _ => held⟩
  · refine kept.holds.perm ?_
    rw [← List.append_assoc]
    exact ((tokens_set_perm inside b).append_right w.outside).symm
  · intro m' among
    rcases List.mem_or_eq_of_mem_set among with old | rfl
    · exact sound.each m' old
    · have onward : Course (.opening c now guard) ((m, .share w.guard) :: log) (m.under w.guard) :=
        course.next rfl
      exact ⟨synced, c, now, guard, _, onward.next done⟩
  · intro j id held old
    unfold token? at held ⊢
    dsimp only at held
    by_cases same : i = j
    · subst same
      rw [List.getElem?_set_self inside] at held
      rw [found]
      rcases kept.fresh id held with own | new
      · exact own
      · exact absurd old (Nat.not_lt.mpr new)
    · rwa [List.getElem?_set_ne same] at held

theorem acquire_sound (sound : w.Sound) (message : String)
    (h : w.perform? (.acquire message) = some w') : w'.Sound ∧ w.Passes w' := by
  cases h
  refine ⟨⟨?_, sound.each⟩, Nat.le_succ _, fun _ _ held _ => held, ?_⟩
  · exact (sound.holds.acquire message).perm List.perm_middle.symm
  · intro id held old
    rcases List.mem_cons.mp held with rfl | held
    · exact absurd old (Nat.lt_irrefl _)
    · exact held

theorem release_sound (sound : w.Sound) (id : Nat)
    (h : w.perform? (.release id) = some w') : w'.Sound ∧ w.Passes w' := by
  simp only [perform?, Option.ite_none_right_eq_some, Option.some.injEq] at h
  obtain ⟨held, rfl⟩ := h
  refine ⟨⟨?_, sound.each⟩, Nat.le_refl _, fun _ _ held _ => held, ?_⟩
  · refine UnloadGuard.Holds.release (sound.holds.perm ?_)
    exact ((List.perm_cons_erase held).append_left _).trans List.perm_middle
  · intro i inside _
    exact List.mem_of_mem_erase inside

theorem perform?_sound (sound : w.Sound) {move : Move} (h : w.perform? move = some w') :
    w'.Sound ∧ w.Passes w' := by
  cases move with
  | spawn c now => exact spawn_sound sound c now h
  | deed i d => exact deed_sound sound h
  | acquire message => exact acquire_sound sound message h
  | release id => exact release_sound sound id h

theorem empty_sound : empty.Sound where
  holds := UnloadGuard.new_holds
  each _ inside := absurd inside List.not_mem_nil

theorem Leads.sound (leads : w.Leads w') (sound : w.Sound) : w'.Sound ∧ w.Passes w' := by
  induction leads with
  | here => exact ⟨sound, .refl _⟩
  | next _ done ih =>
    obtain ⟨before, passes⟩ := ih
    obtain ⟨after, passes'⟩ := perform?_sound before done
    exact ⟨after, passes.trans passes'⟩

/-- The submissions in flight in forms that live. -/
def inFlight (w : Ward) : Nat := w.members.countP fun m => m.form.alive && m.form.pending.isSome

namespace Sound

variable {m : Moment} {i j id : Nat}

/-- A form has a token just if it lives and a submission is in flight. -/
theorem token (sound : w.Sound) (among : m ∈ w.members) :
    m.form.token.isSome = (m.form.alive && m.form.pending.isSome) := by
  obtain ⟨synced, c, now, guard, log, course⟩ := sound.each m among
  have synced : m.form.token.isSome = m.form.pending.isSome := synced
  rw [synced]
  cases alive : m.form.alive with
  | true => rfl
  | false =>
    have landed : m.form.coordinator.pending = none := ((one_flight course).fallen alive).1.landed
    rw [Option.map_eq_none_iff.mp landed]
    rfl

theorem tokens_length (sound : w.Sound) : (tokens w.members).length = w.inFlight := by
  rw [tokens, List.length_filterMap_eq_countP]
  exact List.countP_congr fun m among => by rw [sound.token among]

/-- No two forms have the same token. -/
theorem apart (sound : w.Sound) (first : w.token? i = some id) (second : w.token? j = some id) :
    i = j := by
  obtain ⟨m, found, held⟩ := Option.bind_eq_some_iff.mp first
  obtain ⟨m', found', held'⟩ := Option.bind_eq_some_iff.mp second
  by_contra other
  have once := (tokens_perm found).nodup_iff.mp (List.nodup_append.mp sound.holds.once).1
  rw [held] at once
  refine (List.nodup_cons.mp once).1 (List.mem_filterMap.mpr ⟨m', ?_, held'⟩)
  exact List.mem_eraseIdx_iff_getElem?.mpr ⟨j, Ne.symm other, found'⟩

theorem mem_tokens (held : w.token? i = some id) : id ∈ tokens w.members := by
  obtain ⟨m, found, held⟩ := Option.bind_eq_some_iff.mp held
  exact List.mem_filterMap.mpr ⟨m, List.mem_of_getElem? found, held⟩

end Sound

/-- The token of a form that has ended since is held by nobody. -/
theorem Leads.gone {i id : Nat} {m : Moment} (leads : w.Leads w') (sound : w.Sound)
    (held : w.token? i = some id) (found : w'.members[i]? = some m) (dead : m.form.alive = false) :
    id ∉ w'.guard.active.map Prod.fst := by
  obtain ⟨after, passes⟩ := leads.sound sound
  have old := sound.holds.old id (List.mem_append_left _ (Sound.mem_tokens held))
  rw [after.holds.mem, List.mem_append]
  rintro (form | outside)
  · obtain ⟨m', among, token⟩ := List.mem_filterMap.mp form
    obtain ⟨j, place⟩ := List.mem_iff_getElem?.mp among
    have holds : w'.token? j = some id := Option.bind_eq_some_iff.mpr ⟨m', place, token⟩
    obtain rfl := sound.apart held (passes.tokens j id holds old)
    obtain rfl : m = m' := by simpa [found] using place
    have none := after.token among
    simp [token, dead] at none
  · have apart := (List.nodup_append.mp sound.holds.once).2.2
    exact apart id (Sound.mem_tokens held) id (passes.outside id outside old) rfl

end Ward

/-! ## The main result -/

/-- The tokens held are those taken outside of forms and one for each submission in flight in a form
that lives, so the guard blocks just if there is one of them. A call that runs for a living form is
one of a submission in flight. Once a form has ended none of its tokens is held again. -/
theorem guard_blocks_in_flight {w : Ward} (reached : Ward.empty.Leads w) :
    w.guard.activeCount = w.outside.length + w.inFlight ∧
    (w.guard.isBlocking = true ↔ w.outside ≠ [] ∨
      ∃ m ∈ w.members, m.form.alive = true ∧ m.form.pending.isSome = true) ∧
    (∀ m ∈ w.members, m.form.alive = true →
      ∀ r ∈ m.form.runs, ∀ call ∈ r.calls, ∀ due, call.state = .running due →
        w.guard.isBlocking = true) ∧
    (∀ i id, w.token? i = some id → ∀ w' m, w.Leads w' → w'.members[i]? = some m →
      m.form.alive = false → id ∉ w'.guard.active.map Prod.fst) := by
  have sound := (reached.sound Ward.empty_sound).1
  have count : w.guard.activeCount = w.outside.length + w.inFlight := by
    rw [sound.holds.activeCount, List.length_append, sound.tokens_length, Nat.add_comm]
  have blocks : w.guard.isBlocking = true ↔ w.outside ≠ [] ∨
      ∃ m ∈ w.members, m.form.alive = true ∧ m.form.pending.isSome = true := by
    have flying : 0 < w.inFlight ↔
        ∃ m ∈ w.members, m.form.alive = true ∧ m.form.pending.isSome = true := by
      simp only [Ward.inFlight, List.countP_pos_iff, Bool.and_eq_true]
    rw [sound.holds.isBlocking, ← List.length_pos_iff, ← sound.holds.activeCount, count, ← flying,
      ← List.length_pos_iff]
    omega
  refine ⟨count, blocks, ?_, fun i id held w' m leads found dead => leads.gone sound held found dead⟩
  intro m among alive r run call _ due _
  obtain ⟨_, c, now, guard, log, course⟩ := sound.each m among
  -- The run is that of the submission in flight, as there is no other.
  have flights := one_flight_alive course alive
  have busy : m.form.pending.isSome = true := by
    cases flight : m.form.pending with
    | some p => rfl
    | none =>
      rw [flight] at flights
      obtain ⟨runs, -⟩ := List.append_eq_nil_iff.mp flights
      rw [List.map_eq_nil_iff.mp runs] at run
      cases run
  exact blocks.mpr (.inr ⟨m, among, alive, busy⟩)

/-- A form submits, and a second one falls when it shows that it submits; a token is taken besides.
Then the first form is stopped. -/
theorem guard_blocks_in_flight_two :
    ∃ w w' : Ward, Ward.empty.Leads w ∧ w.Leads w' ∧ w.guard.activeCount = 2 ∧
      w.guard.isBlocking = true ∧ w.token? 0 = some 1 ∧ 1 ∉ w'.guard.active.map Prod.fst := by
  have test : ((Ward.empty.performAll?
      [.spawn (.sample ⟨false, none⟩ .emptyObject) 0,
        .spawn { FormConfig.sample ⟨false, none⟩ .emptyObject with
          observer := some (.failingAt 1) } 0,
        .acquire "upload", .deed 0 (.ask 0 .submit), .deed 0 .handle, .deed 0 (.startCall 0 0),
        .deed 1 (.ask 0 .submit), .deed 1 .handle]).any fun w =>
      w.outside.length == 1 && w.inFlight == 1 && w.guard.nextId == 3 && w.token? 0 == some 1 &&
      (w.members[0]?.any fun m => m.form.alive && m.form.runs.any fun r =>
        r.calls.any fun c => c.state == .running 5) &&
      (w.performAll? [.deed 0 .stop, .deed 0 .close]).any fun w' =>
        w'.members[0]?.any fun m => !m.form.alive) = true := by
    decide +kernel
  simp only [Option.any_eq_true, List.any_eq_true, Bool.and_eq_true, beq_iff_eq,
    Bool.not_eq_true'] at test
  obtain ⟨w, moved, ⟨⟨⟨⟨outside, flying⟩, _⟩, token⟩, m, first, alive, r, run, call, among,
    running⟩, w', ended, m', found, dead⟩ := test
  have reached := Ward.leads_of_performAll? moved
  have leads := Ward.leads_of_performAll? ended
  obtain ⟨count, _, blocks, gone⟩ := guard_blocks_in_flight reached
  refine ⟨w, w', reached, leads, ?_, ?_, token, gone 0 1 token w' m' leads found dead⟩
  · rw [count, outside, flying]
  · exact blocks m (List.mem_of_getElem? first) alive r run call among 5 running

end LiveForm
