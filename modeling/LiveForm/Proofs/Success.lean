import LiveForm.Proofs.Flight
import LiveForm.Proofs.Json.Frame

/-!
# What the success of a submission leaves in place

When a submission has succeeded, its values become the baseline and the edits noted since are put
onto them. A write that was not to be marked is no such edit, so its value gives way to the one that
was submitted.

* `success_keeps`: what stays, and what gives way;
* `success_keeps_marked_only`: an unmarked write that is gone after the settlement.
-/

set_option autoImplicit false

namespace LiveForm

open Json

/-- The paths edited since the submission in flight began, as far as something is there. -/
def Form.noted (f : Form) : List FieldPath :=
  f.changedDuringSubmit.filter fun q => f.store.values.has q

theorem Form.mem_noted {f : Form} {q : FieldPath} :
    q ∈ f.noted ↔ q ∈ f.changedDuringSubmit ∧ f.store.values.has q = true := List.mem_filter

/-- Default values that had been loaded were handled. -/
def Log.Loads (log : Log) : Prop :=
  ∃ x ∈ log, ∃ values, x.1.act x.2 = .handles (.loaded (.ok values))

/-- The submission in flight succeeds. If it had nothing to save or a reset has overtaken it, all
values stay as they are, and the baseline too. Otherwise what is at or below a noted path stays,
unless the path is tangled with another one. At a path that parts from all noted ones there is
afterwards what was submitted: so it stays if it was that before, and an unmarked write gives way.
What should come of values that were loaded in the meantime is left open here. -/
theorem success_keeps {c : FormConfig} {now : Nat} {guard : UnloadGuard} {m : Moment} {log : Log}
    {d : Deed} {p : Pending} (course : Course (.opening c now guard) log m) (config : c.Proper)
    (deeds : ∀ x ∈ log, x.2.Proper) (flight : m.form.pending = some p)
    (handles : m.act d = .handles (.settled p.cycle none)) :
    ∃ m', m.perform? d = some m' ∧
      (p.hadDirty = false ∨ p.superseded = true → m'.form.store = m.form.store) ∧
      (p.hadDirty = true → p.superseded = false →
        (∀ q ∈ m.form.noted, ∀ s ∈ q.segments, FieldPath.index? s ≠ some FieldPath.lastIndex) →
        (∀ q ∈ m.form.noted, (∀ r ∈ m.form.noted, r ≠ q →
            tangled m.form.store.values (some p.values) q.segments r.segments = false) →
          ∀ below v, m.form.store.get? ⟨q.segments ++ below⟩ = some v →
            m'.form.store.get? ⟨q.segments ++ below⟩ = some v) ∧
        (∀ path, (∀ q ∈ m.form.noted, parts p.values path.segments q.segments = true) →
          m.form.store.get? path = p.values.get? path ∨ ¬ (log.since p.cycle).Loads →
            Left (p.values.get? path) (m'.form.store.get? path)) ∧
        (¬ (log.since p.cycle).Loads → m'.form.store.baseline = p.values)) := by
  obtain ⟨rest, _, done⟩ := Moment.perform?_of_handles handles
  refine ⟨_, done, ?_, ?_⟩
  · intro idle
    have counts : p.counts p.cycle = false := by
      rcases idle with idle | idle <;> simp [Pending.counts, idle]
    rw [Moment.handles_store done handles]
    simp [Form.storeAfter, flight, counts]
  · intro edited current room
    have holds := proper course config deeds
    have whole := Store.rooted_of_document (holds.pending p flight)
    obtain ⟨store, committed, baseline, keeps⟩ :=
      Form.commit?_liveEdits p.values holds fun q changed has =>
        ⟨holds.changed q changed, room q (Form.mem_noted.mpr ⟨changed, has⟩)⟩
    have settled : _ = store := (Moment.handles_store done handles).trans (by
      simp [Form.storeAfter, flight, Pending.counts, edited, current, committed])
    rw [whole] at baseline keeps
    rw [settled]
    refine ⟨?_, ?_, fun _ => baseline⟩
    · intro q noted clear below v live
      obtain ⟨changed, has⟩ := Form.mem_noted.mp noted
      obtain ⟨u, there⟩ := Option.isSome_iff_exists.mp has
      have kept : store.get? q = some u := keeps q changed u there fun r changed' other has' =>
        clear r (Form.mem_noted.mpr ⟨changed', has'⟩) other
      have live : (m.form.store.values.get? q).bind (fun t => t.follow? below) = some v :=
        (follow?_append _ _ _).symm.trans live
      rw [there] at live
      refine (follow?_append _ _ _).trans ?_
      rw [show store.values.follow? q.segments = some u from kept]
      exact live
    · intro path apart _
      have left := Store.commit?_parts (q := path.segments) committed fun e inside => by
        obtain ⟨changed, live⟩ := Form.mem_liveEdits.mp inside
        have has := Option.isSome_iff_exists.mpr ⟨_, live⟩
        rw [whole]
        exact ⟨holds.changed _ changed, apart _ (Form.mem_noted.mpr ⟨changed, has⟩)⟩
      rw [whole] at left
      exact left

def Json.int? : Json → Option Int
  | .int n => some n
  | _ => none

theorem Json.int?_eq_some {v : Json} {n : Int} : v.int? = some n ↔ v = .int n := by
  cases v <;> simp [int?]

/-- Path and value of a write that is not to be marked. -/
def Message.unmarked? : Message → Option (FieldPath × Json)
  | .ask _ (.setValue path value (some false)) => some (path, value)
  | _ => none

theorem Message.unmarked?_eq_some {m : Message} {path : FieldPath} {value : Json} :
    m.unmarked? = some (path, value) ↔ ∃ t, m = .ask t (.setValue path value (some false)) := by
  unfold unmarked?
  split
  · simp
  · rename_i other
    constructor
    · rintro ⟨⟩
    · rintro ⟨t, rfl⟩
      exact absurd rfl (other t path value)

/-- While an entry is saved a row is edited and gets a number, the number without a mark, and
elsewhere a count is set without a mark. The number stays, and the count is back at what was
submitted. -/
theorem success_keeps_rows :
    ∃ log m m' p v, Course (.opening (.sample ⟨false, none⟩
        (.obj [("count", .int 0), ("rows", .arr [.int 1])])) 0 .new) log m ∧
      m.form.pending = some p ∧ m.perform? .handle = some m' ∧
      m.form.store.get? ⟨["rows", "0", "number"]⟩ = some v ∧
      m'.form.store.get? ⟨["rows", "0", "number"]⟩ = some v ∧
      m.form.store.get? ⟨["count"]⟩ = some (.int 5) ∧
      Left (p.values.get? ⟨["count"]⟩) (m'.form.store.get? ⟨["count"]⟩) := by
  obtain ⟨log, m, course, done, passed⟩ := Moment.course_of_test
    (.opening (.sample ⟨false, none⟩
      (.obj [("count", .int 0), ("rows", .arr [.int 1])])) 0 .new)
    [.change ⟨["count"]⟩ (.int 1), .handle, .ask 0 .submit, .handle, .startCall 0 0,
      .change ⟨["rows", "0"]⟩ .emptyObject, .handle,
      .ask 1 (.setValue ⟨["rows", "0", "number"]⟩ (.int 7) (some false)), .handle,
      .ask 2 (.setValue ⟨["count"]⟩ (.int 5) (some false)), .handle, .pass 5, .endCall 0 0,
      .finishRun 0]
    (fun log m => m.form.pending.any fun p => p.hadDirty && !p.superseded &&
      (m.act .handle).isHandling (fun s => s.success? == some p.cycle) &&
      m.form.noted.all (fun q =>
        (q.segments.all fun s => FieldPath.index? s != some FieldPath.lastIndex) &&
        q.segments == ["rows", "0"] && parts p.values ["count"] q.segments) &&
      m.form.noted.contains ⟨["rows", "0"]⟩ &&
      (log.since p.cycle).all (fun x => !(x.1.act x.2).isHandling fun s => s.loaded?.isSome) &&
      (m.form.store.get? ⟨["rows", "0", "number"]⟩).isSome &&
      (m.form.store.get? ⟨["count"]⟩).bind int? == some 5)
    (by decide +kernel)
  simp only [Bool.and_eq_true, Bool.not_eq_true', Option.any_eq_true, beq_iff_eq, bne_iff_ne,
    List.all_eq_true, List.contains_iff_mem, Option.isSome_iff_exists, Act.isHandling_iff,
    Message.success?_eq_some, Option.bind_eq_some_iff, Json.int?_eq_some] at passed
  obtain ⟨p, flight, ⟨⟨⟨⟨⟨⟨edited, current⟩, _, handles, rfl⟩, each⟩, noted⟩, loads⟩, v, live⟩,
    _, count, rfl⟩ := passed
  have config : FormConfig.Proper (.sample ⟨false, none⟩
      (.obj [("count", .int 0), ("rows", .arr [.int 1])])) := by
    have rows : (Json.arr [.int 1]).Proper :=
      .arr (by decide) (List.forall_mem_singleton.mpr (.int 1))
    refine .obj (List.pairwise_pair.mpr (by decide)) (List.forall_mem_cons.mpr ⟨.int 0, ?_⟩)
    exact List.forall_mem_singleton.mpr rows
  have deeds : ∀ x ∈ log, x.2.Proper := by
    intro x inside
    have among := done x inside
    simp only [List.mem_cons, List.not_mem_nil, or_false] at among
    rcases among with d | d | d | d | d | d | d | d | d | d | d | d | d | d <;> rw [d]
    case inl => exact ⟨by simp, .int 1⟩
    case inr.inr.inr.inr.inr.inl => exact ⟨by simp, .obj .nil (by simp)⟩
    case inr.inr.inr.inr.inr.inr.inr.inl => exact ⟨by simp, .int 7⟩
    case inr.inr.inr.inr.inr.inr.inr.inr.inr.inl => exact ⟨by simp, .int 5⟩
    all_goals trivial
  have unloaded : ¬ (log.since p.cycle).Loads := by
    rintro ⟨x, among, values, loaded⟩
    simpa [loaded, Act.isHandling, Message.loaded?] using loads x among
  obtain ⟨m', settled, -, keeps⟩ := success_keeps course config deeds flight handles
  obtain ⟨below, apart, -⟩ := keeps edited current fun q inside => (each q inside).1.1
  refine ⟨log, m, m', p, v, course, flight, settled, live, ?_, count, ?_⟩
  · refine below _ noted (fun q inside other => ?_) ["number"] v live
    exact absurd (congrArg FieldPath.mk (each q inside).1.2) other
  · exact apart ⟨["count"]⟩ (fun q inside => (each q inside).2) (.inr unloaded)

/-- While an entry is saved a value next to it is written without a mark. It gives way to the value
that was submitted. -/
theorem success_keeps_marked_only :
    ∃ log m m' p x t, Course (.opening (.sample ⟨false, none⟩
        (.obj [("x", .int 0), ("y", .int 0)])) 0 .new) log m ∧
      m.form.pending = some p ∧ m.act .handle = .handles (.settled p.cycle none) ∧
      x ∈ log.since p.cycle ∧
      x.1.act x.2 = .handles (.ask t (.setValue ⟨["y"]⟩ (.int 5) (some false))) ∧
      m.perform? .handle = some m' ∧ m.form.store.get? ⟨["y"]⟩ = some (.int 5) ∧
      m'.form.store.get? ⟨["y"]⟩ = some (.int 0) := by
  obtain ⟨log, m, course, -, passed⟩ := Moment.course_of_test
    (.opening (.sample ⟨false, none⟩ (.obj [("x", .int 0), ("y", .int 0)])) 0 .new)
    [.change ⟨["x"]⟩ (.int 1), .handle, .ask 0 .submit, .handle, .startCall 0 0,
      .ask 1 (.setValue ⟨["y"]⟩ (.int 5) (some false)), .handle, .pass 5, .endCall 0 0,
      .finishRun 0]
    (fun log m => m.form.pending.any fun p =>
      (m.act .handle).isHandling (fun s => s.success? == some p.cycle) &&
      (log.since p.cycle).any (fun x => (x.1.act x.2).isHandling fun s =>
        s.unmarked?.any fun e => e.1 == ⟨["y"]⟩ && e.2.int? == some 5) &&
      (m.form.store.get? ⟨["y"]⟩).bind int? == some 5 &&
      (m.perform? .handle).any fun m' => (m'.form.store.get? ⟨["y"]⟩).bind int? == some 0)
    (by decide +kernel)
  simp only [Bool.and_eq_true, Option.any_eq_true, List.any_eq_true, beq_iff_eq,
    Act.isHandling_iff, Message.success?_eq_some, Option.bind_eq_some_iff, Json.int?_eq_some,
    Prod.exists, Message.unmarked?_eq_some] at passed
  obtain ⟨p, flight, ⟨⟨⟨_, handles, rfl⟩, a, d, since, _, writes, _, _, ⟨t, rfl⟩, rfl, rfl⟩, _,
    live, rfl⟩, m', settled, _, back, rfl⟩ := passed
  exact ⟨log, m, m', p, (a, d), t, course, flight, handles, since, writes, settled, live, back⟩

end LiveForm
