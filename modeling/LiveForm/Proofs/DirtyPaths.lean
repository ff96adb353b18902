import LiveForm.Proofs.Leaves
import LiveForm.Proofs.Standing.Step

/-!
# The dirty paths of a form

A form is dirty as long as a leaf is left among its marks. Its snapshots name the path to each leaf,
but for those that go through an empty key: there is no path with an empty segment.

* `DirtyFields.Listed`, `Snapshot.Tells`: what is listed of the marks, and what a snapshot tells of
  them;
* `DirtyFields.Written.bearing`: to write values keeps leaves on all branches of the marks;
* `dirty_paths_listed`: so it is on every course, and a form is dirty iff it names a dirty path, if no
  leaf is below an empty key;
* `dirty_paths_unlisted`: an edit below an empty key leaves a form dirty that names no dirty path.
-/

set_option autoImplicit false

namespace LiveForm

open DirtyTree

/-- The paths of the marks are those that lead to a leaf and have no empty segment, each of them once
and in their order. -/
structure DirtyFields.Listed (d : DirtyFields) : Prop where
  paths : ∀ p, p ∈ d.paths ↔ d.HasLeaf p.segments ∧ "" ∉ p.segments
  sorted : d.paths.Pairwise (· < ·)

/-- What a snapshot tells of the marks. -/
structure Snapshot.Tells (x : Snapshot) (d : DirtyFields) : Prop where
  dirty : x.isDirty = true ↔ ∃ q, d.HasLeaf q
  paths : x.dirtyPaths = d.paths.map FieldPath.display
  named : x.dirtyPaths ≠ [] ↔ ∃ q, d.HasLeaf q ∧ "" ∉ q
  agrees : (∀ q, d.HasLeaf q → "" ∉ q) → (x.isDirty = true ↔ x.dirtyPaths ≠ [])

theorem DirtyFields.listed {d : DirtyFields} (h : Bearing d.children) : d.Listed :=
  ⟨fun _ => mem_paths h, paths_sorted h⟩

theorem Snapshot.tells {x : Snapshot} {d : DirtyFields} (h : Bearing d.children)
    (dirty : x.isDirty = !d.isEmpty) (paths : x.dirtyPaths = d.paths.map FieldPath.display) :
    x.Tells d := by
  have isDirty : x.isDirty = true ↔ ∃ q, d.HasLeaf q := by
    rw [dirty, Bool.not_eq_true', DirtyFields.isEmpty_iff h]
  have named : x.dirtyPaths ≠ [] ↔ ∃ q, d.HasLeaf q ∧ "" ∉ q := by
    rw [paths, Ne, List.map_eq_nil_iff, ← Ne]
    constructor
    · intro some
      obtain ⟨p, listed⟩ := List.exists_mem_of_ne_nil _ some
      exact ⟨p.segments, (DirtyFields.mem_paths h).mp listed⟩
    · rintro ⟨q, leaf⟩
      have listed : ⟨q⟩ ∈ d.paths := (DirtyFields.mem_paths h).mpr leaf
      exact List.ne_nil_of_mem listed
  refine ⟨isDirty, paths, named, fun filled => ?_⟩
  rw [isDirty, named]
  constructor
  · rintro ⟨q, leaf⟩
    exact ⟨q, leaf, filled q leaf⟩
  · rintro ⟨q, leaf, -⟩
    exact ⟨q, leaf⟩

/-- Writing keeps leaves on the branches. -/
theorem DirtyFields.Written.bearing {d d' : DirtyFields} (written : d.Written d')
    (h : Bearing d.children) : Bearing d'.children := by
  cases written with
  | kept => exact h
  | marked p => exact h.mark p.segments
  | compared current baseline => exact diff_bearing current baseline

theorem Standing.Move.bearing {x y : Stage × Standing} (move : Standing.Move x y)
    (h : Bearing x.2.dirty.children) : Bearing y.2.dirty.children := by
  cases move with
  | writes _ written | resets written => exact written.bearing h
  | shows =>
    unfold Standing.publish
    split <;> exact h
  | _ => exact h

/-! ## Along a course -/

theorem Form.make_bearing (c : FormConfig) (now : Nat) :
    Bearing (Form.make c now).standing.dirty.children := by
  have none : (Form.make c now).standing.dirty = .empty := by
    unfold Form.make Form.standing
    cases c.defaults <;> rfl
  rw [none]
  exact .empty

theorem Course.bearing {c : FormConfig} {now : Nat} {guard : UnloadGuard} {m : Moment} {log : Log}
    (course : Course (.opening c now guard) log m) :
    m.form.Upholds fun _ st => Bearing st.dirty.children := by
  apply course.upholds (P := fun _ st => Bearing st.dirty.children)
  · intro x y move before
    exact move.bearing before
  · intro st st' drifts before
    cases drifts <;> exact before
  · exact Form.make_bearing c now

/-- The dirty paths of a form are those that lead to a leaf of its marks and have no empty segment,
each of them once and in their order. The form is dirty iff there is a leaf at all, and it names a
dirty path iff there is one that is below no empty key: so both agree, unless a leaf is below an empty
key. All that a message publishes tells of the marks that it leaves in this way. -/
theorem dirty_paths_listed {c : FormConfig} {now : Nat} {guard : UnloadGuard} {m : Moment}
    {log : Log} (course : Course (.opening c now guard) log m) :
    m.form.store.dirty.Listed ∧ m.form.currentSnapshot.Tells m.form.store.dirty ∧
    ∀ b, m.perform? .handle = some b → ∃ message rest xs, m.form.mailbox = message :: rest ∧
      Turn.Publishes (m.scene.update fun f => { f with mailbox := rest }) xs
        ((m.scene.update fun f => { f with mailbox := rest }).handle m.now message) ∧
      ∀ x ∈ xs, x.Tells b.form.store.dirty := by
  have upheld := course.bearing
  have bearing : Bearing m.form.store.dirty.children := by
    cases alive : m.form.alive with
    | true => exact upheld.living alive
    | false =>
      obtain ⟨-, st, held, same, -⟩ := upheld.fallen alive
      have dirty : m.form.store.dirty = st.dirty := congrArg Standing.dirty same
      rw [dirty]
      exact held
  refine ⟨DirtyFields.listed bearing, Snapshot.tells bearing rfl rfl, fun b done => ?_⟩
  obtain ⟨message, rest, xs, mailbox, publishes, taken⟩ :=
    Moment.handle_publishes done (one_flight course) upheld Standing.Move.bearing
  refine ⟨message, rest, xs, mailbox, publishes, fun x among => ?_⟩
  obtain ⟨-, st, phase, -, held, -, -, dirty, -, seen⟩ := taken x among
  rw [← dirty]
  exact Snapshot.tells held seen.isDirty seen.dirtyPaths

/-- While a submission is in flight the colour is edited again. It is compared with what has been
submitted then, and is the one dirty path. -/
theorem dirty_paths_listed_again :
    ∃ log m, Course (.opening (.sample ⟨false, none⟩
        (.obj [("area", .obj [("color", .int 1), ("name", .int 2)])])) 0 .new) log m ∧
      m.form.isSubmitSuccessful = true ∧ m.form.store.dirty.Listed ∧
      m.form.store.dirty.paths = [⟨["area", "color"]⟩] ∧
      m.form.store.dirty.HasLeaf ["area", "color"] ∧
      m.form.currentSnapshot.isDirty = true ∧ m.form.currentSnapshot.dirtyPaths ≠ [] := by
  obtain ⟨log, m, course, -, passed⟩ := Moment.course_of_test
    (.opening (.sample ⟨false, none⟩
      (.obj [("area", .obj [("color", .int 1), ("name", .int 2)])])) 0 .new)
    [.change ⟨["area", "color"]⟩ (.int 3), .handle, .ask 0 .submit, .handle, .startCall 0 0,
      .change ⟨["area", "color"]⟩ (.int 4), .handle, .pass 5, .endCall 0 0, .finishRun 0, .handle]
    (fun _ m => m.form.isSubmitSuccessful &&
      m.form.store.dirty.paths == [⟨["area", "color"]⟩])
    (by decide +kernel)
  simp only [Bool.and_eq_true, beq_iff_eq] at passed
  obtain ⟨success, paths⟩ := passed
  obtain ⟨listed, tells, -⟩ := dirty_paths_listed course
  have among : ⟨["area", "color"]⟩ ∈ m.form.store.dirty.paths := by simp [paths]
  have leaf := (listed.paths _).mp among
  refine ⟨log, m, course, success, listed, paths, leaf.1, ?_, ?_⟩
  · exact tells.dirty.mpr ⟨_, leaf.1⟩
  · exact tells.named.mpr ⟨_, leaf⟩

/-- While a submission is in flight a value below an empty key is edited again. The form is dirty
then, and names no dirty path. -/
theorem dirty_paths_unlisted :
    ∃ log m, Course (.opening (.sample ⟨false, none⟩
        (.obj [("a", .obj [("", .int 0)])])) 0 .new) log m ∧
      m.form.currentSnapshot.isDirty = true ∧ m.form.currentSnapshot.dirtyPaths = [] := by
  obtain ⟨log, m, course, -, passed⟩ := Moment.course_of_test
    (.opening (.sample ⟨false, none⟩ (.obj [("a", .obj [("", .int 0)])])) 0 .new)
    [.ask 0 (.setValue ⟨["a"]⟩ (.obj [("", .int 1)]) (some true)), .handle, .ask 1 .submit, .handle,
      .startCall 0 0, .ask 2 (.setValue ⟨["a"]⟩ (.obj [("", .int 2)]) (some true)), .handle, .pass 5,
      .endCall 0 0, .finishRun 0, .handle]
    (fun _ m => m.form.currentSnapshot.isDirty && m.form.currentSnapshot.dirtyPaths.isEmpty)
    (by decide +kernel)
  obtain ⟨dirty, none⟩ := Bool.and_eq_true_iff.mp passed
  exact ⟨log, m, course, dirty, List.isEmpty_iff.mp none⟩

end LiveForm
