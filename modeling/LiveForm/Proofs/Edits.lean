import LiveForm.Proofs.Changed
import LiveForm.Proofs.Execution
import LiveForm.Proofs.Json.Overlay
import LiveForm.Proofs.Ledger.Course

/-!
# Edits outlive submissions

A submission that succeeds puts the values it was sent with back, and on top of them what stands at
the paths that were edited since. Where paths are made of keys that is all there was: whatever is
submitted and however it ends, the values are what the edits alone make of the first ones.

* `Form.Follows`: the values are made by some edits, and the submission in flight was sent after the
  first of them, while the paths in mind are those of the others;
* `Scene.handle_follows`: a message adds its own edit, if it brings one, and no more;
* `Form.Carries`: the edits that were sent are done or wait in the mailbox, whatever a form does by
  itself.
-/

set_option autoImplicit false

namespace LiveForm

open Json

abbrev Edit := FieldPath × Json

/-- An edit under a path of keys, with a proper value. -/
def Edit.Plain (e : Edit) : Prop := e.1.Keyed ∧ e.2.Proper

namespace Message

/-- The edit that a message brings. -/
def edit? : Message → Option Edit
  | .fieldChanged path value => some (path, value)
  | .ask _ (.setValue path value (some true)) => some (path, value)
  | _ => none

/-- Messages that change values by edits, and in no other way but with the end of a submission. -/
def onlyEdits : Message → Bool
  | .ask _ (.setValue _ _ dirty) => dirty = some true
  | .ask _ (.reset _) => false
  | .loaded _ => false
  | _ => true

/-- What such a message makes of the values, the submission in flight and the paths in mind. -/
inductive Acts (f : Form) : Message → Prop where
  | edits {m : Message} {path : FieldPath} {value : Json} (edit : m.edit? = some (path, value))
      (store : f.storeAfter m = (f.store.set? path value true).getD f.store)
      (pending : f.pendingAfter m = f.pending) (changed : f.changedAfter m = f.changedWith path) :
      Acts f m
  | lands {m : Message} {p : Pending} (edit : m.edit? = none) (flight : f.pending = some p)
      (store : f.storeAfter m = f.store ∨ f.storeAfter m =
        (Store.commit? p.values (f.liveEdits f.changedDuringSubmit)).getD f.store)
      (pending : f.pendingAfter m = none) (changed : f.changedAfter m = []) : Acts f m
  | rests {m : Message} (edit : m.edit? = none) (store : f.storeAfter m = f.store)
      (pending : f.pendingAfter m = f.pending)
      (changed : f.changedAfter m = f.changedDuringSubmit) : Acts f m

theorem settled_acts (f : Form) (cycle : Nat) (failure : Option SubmitError) :
    (settled cycle failure).Acts f := by
  cases flight : f.pending with
  | none =>
    refine .rests rfl ?_ (by simp [Form.pendingAfter, flight]) (by simp [Form.changedAfter, flight])
    cases failure <;> simp [Form.storeAfter, flight]
  | some p =>
    by_cases same : p.cycle = cycle
    · refine .lands rfl flight ?_ (by simp [Form.pendingAfter, flight, same])
        (by simp [Form.changedAfter, flight, same])
      cases failure with
      | some => exact .inl rfl
      | none =>
        simp only [Form.storeAfter, flight]
        split
        · exact .inr rfl
        · exact .inl rfl
    · refine .rests rfl ?_ (by simp [Form.pendingAfter, flight, same])
        (by simp [Form.changedAfter, flight, same])
      cases failure <;> simp [Form.storeAfter, flight, Pending.counts, same]

theorem acts {m : Message} (f : Form) (only : m.onlyEdits = true) : m.Acts f := by
  cases m with
  | fieldChanged path value => exact .edits rfl rfl rfl rfl
  | settled cycle failure => exact settled_acts f cycle failure
  | loaded => cases only
  | debounceElapsed | hideLoader => exact .rests rfl rfl rfl rfl
  | ask ticket request =>
    cases request with
    | setValue path value dirty =>
      obtain rfl : dirty = some true := by simpa [onlyEdits] using only
      exact .edits rfl rfl rfl rfl
    | reset => cases only
    | _ => exact .rests rfl rfl rfl rfl

end Message

/-- A submission was sent after some of the edits, and the paths in mind are those of the others. -/
structure Pending.Follows (base : Json) (done : List Edit) (changed : List FieldPath) (p : Pending) :
    Prop where
  current : p.superseded = false
  parts : ∃ before since, done = before ++ since ∧ Store.writeAll? base before = some p.values ∧
    ∀ q, q ∈ changed ↔ ∃ v, (q, v) ∈ since

/-- The values of a form are made by edits. -/
structure Form.Follows (base : Json) (done : List Edit) (f : Form) : Prop where
  values : Store.writeAll? base done = some f.store.values
  idle : f.pending = none → f.changedDuringSubmit = []
  flight : ∀ p, f.pending = some p → p.Follows base done f.changedDuringSubmit

theorem Store.writeAll?_append (t : Json) (first rest : List Edit) :
    writeAll? t (first ++ rest) = (writeAll? t first).bind fun t => writeAll? t rest := by
  induction first generalizing t with
  | nil => rfl
  | cons e first ih =>
    rw [List.cons_append, writeAll?, writeAll?]
    cases t.set? e.1 e.2 with
    | none => rfl
    | some t' => exact ih t'

theorem Form.mem_changedWith {f : Form} {path q : FieldPath} (flight : f.pending.isSome = true) :
    q ∈ f.changedWith path ↔ q ∈ f.changedDuringSubmit ∨ q = path := by
  unfold changedWith
  rw [flight, Bool.true_and]
  split
  · exact List.mem_append.trans (or_congr_right List.mem_singleton)
  · rename_i known
    have known : path ∈ f.changedDuringSubmit := by simpa using known
    exact ⟨.inl, fun inside => inside.elim id fun same => same ▸ known⟩

namespace Form.Follows

variable {base : Json} {done : List Edit} {f : Form} {m : Message}

theorem document (follows : f.Follows base done) (document : base.Document)
    (plain : ∀ e ∈ done, e.Plain) : f.store.values.Document :=
  Store.writeAll?_document document (fun e inside => (plain e inside).2) follows.values

/-- What was sent with the edits since is what there is. -/
theorem restored {p : Pending} (follows : f.Follows base done) (document : base.Document)
    (plain : ∀ e ∈ done, e.Plain) (flight : f.pending = some p) {store : Store}
    (committed : Store.commit? p.values (f.liveEdits f.changedDuringSubmit) = some store) :
    store.values = f.store.values := by
  obtain ⟨-, before, since, rfl, sent, same⟩ := follows.flight p flight
  obtain ⟨early, late⟩ := List.forall_mem_append.mp plain
  have there := Store.writeAll?_document document (fun e inside => (early e inside).2) sent
  have made := follows.values
  rw [Store.writeAll?_append, sent, Option.bind_some] at made
  obtain ⟨merged, written, rfl⟩ := Option.map_eq_some_iff.mp committed
  rw [Store.rooted_of_document there] at written
  have again : Store.writeAll? p.values (f.liveEdits f.changedDuringSubmit) =
      some f.store.values := Store.writeAll?_overlay there late made same
  exact Option.some.inj (written.symm.trans again)

/-- The values after a message. -/
theorem values_after (follows : f.Follows base done) (document : base.Document)
    (plain : ∀ e ∈ done ++ m.edit?.toList, e.Plain) (only : m.onlyEdits = true) :
    Store.writeAll? base (done ++ m.edit?.toList) = some (f.storeAfter m).values := by
  obtain ⟨early, late⟩ := List.forall_mem_append.mp plain
  cases m.acts f only with
  | @edits path value edit store =>
    have keyed : path.Keyed := (late (path, value) (by simp [edit])).1
    have object := (follows.document document early).object
    rw [Store.writeAll?_append, follows.values, edit, store]
    simp [Store.writeAll?, Store.set?, set?_keyed object keyed]
  | lands edit flight store =>
    have same : (f.storeAfter m).values = f.store.values := by
      rcases store with same | restored
      · rw [same]
      · rw [restored]
        cases committed : Store.commit? _ (f.liveEdits f.changedDuringSubmit) with
        | none => rfl
        | some store => exact follows.restored document early flight committed
    rw [same, edit]
    simpa using follows.values
  | rests edit store =>
    rw [edit, store]
    simpa using follows.values

/-- Where no submission is in flight after a message, no path is in mind. -/
theorem idle_after (follows : f.Follows base done) (only : m.onlyEdits = true)
    (free : f.pendingAfter m = none) : f.changedAfter m = [] := by
  cases m.acts f only with
  | edits _ _ pending changed =>
    rw [pending] at free
    rw [changed, Form.changedWith, free]
    exact follows.idle free
  | rests _ _ pending changed =>
    rw [pending] at free
    rw [changed]
    exact follows.idle free
  | lands _ _ _ _ changed => exact changed

/-- The submission in flight after a message that begins none. -/
theorem flight_after {p : Pending} (follows : f.Follows base done) (only : m.onlyEdits = true)
    (flight : f.pendingAfter m = some p) :
    p.Follows base (done ++ m.edit?.toList) (f.changedAfter m) := by
  cases m.acts f only with
  | @edits path value edit _ pending changed =>
    rw [pending] at flight
    obtain ⟨current, before, since, split, sent, same⟩ := follows.flight p flight
    refine ⟨current, before, since ++ [(path, value)], by simp [split, edit], sent, fun q => ?_⟩
    rw [changed, mem_changedWith (by simp [flight]), same]
    simp [exists_or]
  | rests edit _ pending changed =>
    rw [pending] at flight
    rw [edit, changed]
    simpa using follows.flight p flight
  | lands _ _ _ pending =>
    rw [pending] at flight
    cases flight

end Form.Follows

/-- A message adds its own edit, and no more. -/
theorem Scene.handle_follows {s s' : Scene} {now : Nat} {m : Message} {base : Json}
    {done : List Edit} (follows : s.form.Follows base done) (document : base.Document)
    (plain : ∀ e ∈ done ++ m.edit?.toList, e.Plain) (only : m.onlyEdits = true)
    (turn : s.handle now m = .goesOn s') : s'.form.Follows base (done ++ m.edit?.toList) := by
  have store : s'.form.store = s.form.storeAfter m := by
    rw [← s.handle_store now m, turn]
    rfl
  have changed : s'.form.changedDuringSubmit = s.form.changedAfter m := s.handle_changed now m s' turn
  have values : Store.writeAll? base (done ++ m.edit?.toList) = some s'.form.store.values :=
    store ▸ follows.values_after document plain only
  cases handle_flies now turn with
  | stays _ _ pending =>
    refine ⟨values, fun free => ?_, fun p flight => ?_⟩
    · exact changed ▸ follows.idle_after only (pending ▸ free)
    · exact changed ▸ follows.flight_after only (pending ▸ flight)
  | begins _ taken cycles _ pending =>
    refine ⟨values, fun free => ?_, fun p flight => ?_⟩
    · rw [pending] at free
      cases free
    · -- what is there is sent, so all edits come before it
      obtain rfl := Option.some.inj (pending.symm.trans flight)
      refine ⟨rfl, _, [], (List.append_nil _).symm, ?_, fun q => ?_⟩
      · exact values.trans (congrArg (fun x : Store => some x.values) taken.symm)
      · rw [changed, follows.idle_after only (begins_free turn cycles)]
        simp

/-! ## What a form does by itself -/

/-- Notices of a form's own timers and runs. -/
def Message.isOwn : Message → Bool
  | .debounceElapsed _ => true
  | .settled _ _ => true
  | .hideLoader _ => true
  | _ => false

namespace Message

variable {m : Message}

theorem edit?_own (notice : m.isOwn = true) : m.edit? = none := by
  cases m with
  | ask | fieldChanged | loaded => cases notice
  | _ => rfl

theorem onlyEdits_own (notice : m.isOwn = true) : m.onlyEdits = true := by
  cases m with
  | ask | fieldChanged | loaded => cases notice
  | _ => rfl

end Message

/-- What a form has before it: its values, what is sent of them, and what it has still to handle. -/
structure Desk where
  store : Store
  pending : Option Pending
  changed : List FieldPath
  alive : Bool
  mailbox : List Message

def Form.desk (f : Form) : Desk :=
  ⟨f.store, f.pending, f.changedDuringSubmit, f.alive, f.mailbox⟩

theorem Form.post_alive (f : Form) (m : Message) : (f.post m).alive = f.alive := by
  unfold Form.post
  split <;> rfl

/-- A run, a timer or a load has moved on, which may put a notice into the mailbox. -/
structure Form.Works (notice : Option Message) (f g : Form) : Prop where
  own : f.load = none → ∀ m ∈ notice, m.isOwn = true
  load : f.load = none → g.load = none
  desk : g.desk = { f.desk with mailbox := f.mailbox ++ notice.toList }

theorem Form.works_of_desk {f g : Form} (load : f.load = none → g.load = none)
    (same : g.desk = f.desk) : ∃ notice, f.Works notice g :=
  ⟨none, nofun, load, by rw [same, Option.toList_none, List.append_nil]; rfl⟩

theorem Form.works_post {f g : Form} {m : Message} (own : f.load = none → m.isOwn = true)
    (load : f.load = none → g.load = none) (same : g.desk = f.desk) :
    ∃ notice, f.Works notice (g.post m) := by
  unfold Form.post
  split
  · refine ⟨some m, by simpa using own, load, ?_⟩
    have mailbox : g.mailbox = f.mailbox := congrArg Desk.mailbox same
    show { g.desk with mailbox := g.mailbox ++ [m] } = _
    rw [same, mailbox]
    rfl
  · exact works_of_desk load same

namespace Scene

variable {s s' : Scene} {now : Nat}

theorem tellStarts_desk (s : Scene) (calls : List Call) :
    (s.tellStarts calls).form.load = s.form.load ∧
      (s.tellStarts calls).form.desk = s.form.desk := by
  unfold tellStarts
  induction calls generalizing s with
  | nil => exact ⟨rfl, rfl⟩
  | cons c rest ih => exact ih _

/-- The next thing that a form does: it stops, handles a message, or goes on with a run, a timer or a
load. -/
theorem tick?_cases (h : s.tick? now = some s') :
    s' = s.close ∨
      (∃ m rest, s.form.mailbox = m :: rest ∧
        s' = ((s.update fun f => { f with mailbox := rest }).handle now m).land) ∨
      ∃ notice, s.form.Works notice s'.form := by
  unfold tick? at h
  split at h
  · exact .inl (Option.some.inj h).symm
  · refine .inr ?_
    rcases orElse_eq_some h with next | h
    · unfold handleNext? at next
      split at next
      · cases next
      · rename_i m rest mailbox
        exact .inl ⟨m, rest, mailbox, (Option.some.inj next).symm⟩
    refine .inr ?_
    rcases orElse_eq_some h with next | h
    · obtain ⟨i, r, -, -, rfl⟩ := startRun?_eq_some next
      obtain ⟨load, same⟩ := (s.putRun i (r.start now)).tellStarts_desk r.calls
      exact Form.works_of_desk load.trans same
    rcases orElse_eq_some h with next | h
    · obtain ⟨i, r, k, c, -, -, -, rfl, -⟩ := endCall?_eq_some next
      exact Form.works_of_desk id rfl
    rcases orElse_eq_some h with next | h
    · obtain ⟨i, r, rfl, -⟩ := finishRun?_eq_some next
      exact Form.works_post (fun _ => rfl) id rfl
    rcases orElse_eq_some h with next | h
    · obtain ⟨t, -, rfl⟩ := Option.map_eq_some_iff.mp next
      exact Form.works_post (fun _ => rfl) id rfl
    rcases orElse_eq_some h with next | next
    · obtain ⟨t, -, rfl⟩ := Option.map_eq_some_iff.mp next
      exact Form.works_post (fun _ => rfl) id rfl
    · obtain ⟨l, due, rfl⟩ := Option.map_eq_some_iff.mp next
      have loads : s.form.load ≠ none := fun none => by simp [none] at due
      dsimp only [update]
      split
      · exact Form.works_post (fun none => absurd none loads) (fun _ => rfl) rfl
      · exact Form.works_of_desk (fun _ => rfl) rfl

/-- A form that has ended does not come back. -/
theorem tick?_alive (h : s.tick? now = some s') (alive : s'.form.alive = true) :
    s.form.alive = true := by
  rcases tick?_cases h with rfl | ⟨m, rest, mailbox, rfl⟩ | ⟨notice, works⟩
  · cases alive
  · have turn := Moment.land_alive alive
    have same := ((handle_ends _ now m).goes _ turn).alive
    exact same.symm.trans alive
  · exact (congrArg Desk.alive works.desk).symm.trans alive

/-- Handling a message loads nothing. -/
theorem handle_load {m : Message} (turn : s.handle now m = .goesOn s') :
    s'.form.load = s.form.load := by
  have ledger := congrArg Ledger.load (s.handle_ledger now m)
  rw [turn] at ledger
  exact ledger

/-- What a message leaves in the mailbox: what was there, and at most the notice of a wait. -/
theorem handle_mailbox {m : Message} (turn : s.handle now m = .goesOn s') :
    ∃ notice : Option Message, (∀ m ∈ notice, m.isOwn = true) ∧
      s'.form.mailbox = s.form.mailbox ++ notice.toList := by
  obtain ⟨notice, mailbox⟩ := ((s.handle_ends now m).goes s' turn).mailbox
  refine ⟨notice.map .debounceElapsed, ?_, mailbox⟩
  intro m among
  obtain ⟨generation, -, rfl⟩ := Option.map_eq_some_iff.mp among
  rfl

end Scene

/-- The edits that were sent to a form are done, or wait in its mailbox. -/
structure Form.Carries (base : Json) (sent : List Edit) (f : Form) : Prop where
  mailbox : ∀ m ∈ f.mailbox, m.onlyEdits = true
  load : f.load = none
  edits : ∃ done, sent = done ++ f.mailbox.filterMap Message.edit? ∧ f.Follows base done

namespace Form

variable {base : Json} {sent done : List Edit} {f g : Form}

theorem Follows.congr (follows : f.Follows base done) (store : g.store = f.store)
    (pending : g.pending = f.pending) (changed : g.changedDuringSubmit = f.changedDuringSubmit) :
    g.Follows base done := by
  constructor
  · exact store ▸ follows.values
  · exact pending ▸ changed ▸ follows.idle
  · exact pending ▸ changed ▸ follows.flight

/-- A notice brings no edit. -/
theorem edits_notice (mailbox : List Message) {notice : Option Message}
    (notices : ∀ m ∈ notice, m.isOwn = true) :
    (mailbox ++ notice.toList).filterMap Message.edit? = mailbox.filterMap Message.edit? := by
  cases notice with
  | none => simp
  | some m => simp [Message.edit?_own (notices m rfl)]

theorem onlyEdits_notices {mailbox : List Message} {notice : Option Message}
    (notices : ∀ m ∈ notice, m.isOwn = true) (only : ∀ m ∈ mailbox, m.onlyEdits = true) :
    ∀ m ∈ mailbox ++ notice.toList, m.onlyEdits = true := by
  refine List.forall_mem_append.mpr ⟨only, fun m inside => ?_⟩
  exact Message.onlyEdits_own (notices m (Option.mem_toList.mp inside))

namespace Carries

theorem works {notice : Option Message} (carries : f.Carries base sent) (works : f.Works notice g) :
    g.Carries base sent := by
  have notices := works.own carries.load
  have mailbox : g.mailbox = f.mailbox ++ notice.toList := congrArg Desk.mailbox works.desk
  obtain ⟨done, rfl, follows⟩ := carries.edits
  refine ⟨?_, works.load carries.load, done, ?_, ?_⟩
  · exact mailbox ▸ onlyEdits_notices notices carries.mailbox
  · rw [mailbox, edits_notice _ notices]
  · exact follows.congr (congrArg Desk.store works.desk) (congrArg Desk.pending works.desk)
      (congrArg Desk.changed works.desk)

theorem handles {s s' : Scene} {now : Nat} {m : Message} {rest : List Message}
    (carries : s.form.Carries base sent) (document : base.Document) (plain : ∀ e ∈ sent, e.Plain)
    (mailbox : s.form.mailbox = m :: rest)
    (turn : (s.update fun f => { f with mailbox := rest }).handle now m = .goesOn s') :
    s'.form.Carries base sent := by
  obtain ⟨notice, notices, left⟩ := Scene.handle_mailbox turn
  obtain ⟨only, others⟩ := List.forall_mem_cons.mp (mailbox ▸ carries.mailbox)
  obtain ⟨done, split, follows⟩ := carries.edits
  have split : sent = (done ++ m.edit?.toList) ++ rest.filterMap Message.edit? := by
    rw [split, mailbox, List.filterMap_cons]
    cases m.edit? <;> simp
  have plain : ∀ e ∈ done ++ m.edit?.toList, e.Plain := fun e inside =>
    plain e (split ▸ List.mem_append_left _ inside)
  refine ⟨?_, (Scene.handle_load turn).trans carries.load, done ++ m.edit?.toList, ?_, ?_⟩
  · exact left ▸ onlyEdits_notices notices others
  · rw [left, edits_notice _ notices]
    exact split
  · have before : (s.update fun f => { f with mailbox := rest }).form.Follows base done :=
      follows.congr rfl rfl rfl
    exact Scene.handle_follows before document plain only turn

/-- A message is sent. -/
theorem post {m : Message} (carries : f.Carries base sent) (alive : f.alive = true)
    (only : m.onlyEdits = true) : (f.post m).Carries base (sent ++ m.edit?.toList) := by
  obtain ⟨done, rfl, follows⟩ := carries.edits
  have posted : f.post m = { f with mailbox := f.mailbox ++ [m] } := if_pos alive
  rw [posted]
  refine ⟨?_, carries.load, done, ?_, follows.congr rfl rfl rfl⟩
  · exact List.forall_mem_append.mpr ⟨carries.mailbox, by simpa using only⟩
  · cases edit : m.edit? <;> simp [edit]

end Carries

end Form

/-- What a form does by itself adds no edit and loses none. -/
theorem Scene.tick?_carries {s s' : Scene} {now : Nat} {base : Json} {sent : List Edit}
    (carries : s.form.alive = true → s.form.Carries base sent) (document : base.Document)
    (plain : ∀ e ∈ sent, e.Plain) (h : s.tick? now = some s') (alive : s'.form.alive = true) :
    s'.form.Carries base sent := by
  have carries := carries (tick?_alive h alive)
  rcases tick?_cases h with rfl | ⟨m, rest, mailbox, rfl⟩ | ⟨notice, works⟩
  · cases alive
  · have turn := Moment.land_alive alive
    exact carries.handles document plain mailbox turn
  · exact carries.works works

end LiveForm
