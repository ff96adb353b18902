import LiveForm.Proofs.Leaves
import LiveForm.Proofs.Values

/-!
# Edits made while default values load

Loaded values become the baseline, and the edits made before are written onto them in the order of
the marks. Most edits survive that. But an object that was made by edits has to be made anew where
the loaded values have none, and then its keys do not always find room together.

* `edits_outlive_load`: the edits that survive;
* `edits_outlive_load_lost`: two keys of an object, one of which is lost.
-/

set_option autoImplicit false

namespace LiveForm

open Json

theorem DirtyFields.named_of_mem_paths {d : DirtyFields} {p : FieldPath} (h : p ∈ d.paths) :
    p.segments ≠ [] := by
  obtain ⟨segments, -, found⟩ := List.mem_filterMap.mp h
  obtain ⟨named, -, same⟩ := FieldPath.ofSegments_eq_some.mp found
  exact same ▸ named

/-- When default values have been loaded they become the baseline. A path that is marked as edited
has the value after that it had before, unless it is tangled with another one: unless both lead
through an object of the edited values that is none in the loaded ones, and have keys there that do
not go together. -/
theorem edits_outlive_load {c : FormConfig} {now : Nat} {guard : UnloadGuard} {m : Moment}
    {log : Log} {d : Deed} {values : Json} (course : Course (.opening c now guard) log m)
    (config : c.Proper) (deeds : ∀ x ∈ log, x.2.Proper)
    (handles : m.act d = .handles (.loaded (.ok values)))
    (room : ∀ q ∈ m.form.store.dirty.paths, m.form.store.values.has q = true →
      ∀ s ∈ q.segments, FieldPath.index? s ≠ some FieldPath.lastIndex) :
    ∃ m', m.perform? d = some m' ∧ m'.form.store.baseline = Store.rooted values ∧
      ∀ p ∈ m.form.store.dirty.paths, ∀ v, m.form.store.get? p = some v →
        (∀ q ∈ m.form.store.dirty.paths, q ≠ p → m.form.store.values.has q = true →
          tangled m.form.store.values (some (Store.rooted values)) p.segments q.segments = false) →
        m'.form.store.get? p = some v := by
  obtain ⟨store, committed, baseline, keeps⟩ :=
    Form.commit?_liveEdits values (proper course config deeds) fun q marked has =>
      ⟨DirtyFields.named_of_mem_paths marked, room q marked has⟩
  obtain ⟨rest, _, done⟩ := Moment.perform?_of_handles handles
  have loaded : _ = store := (Moment.handles_store done handles).trans (by
    rw [Form.storeAfter, committed, Option.getD_some])
  refine ⟨_, done, (congrArg Store.baseline loaded).trans baseline, ?_⟩
  rw [loaded]
  exact keeps

/-- A form with the sample's handler, whose default values take a tenth of a second to load. -/
def FormConfig.loading (values : Json) : FormConfig :=
  { FormConfig.sample ⟨false, none⟩ values with defaults := .loaded 100 (.values values) }

/-- Two rows are entered as a list, and the loaded values have an object in its place. -/
theorem edits_outlive_load_rows :
    ∃ log m m' values v,
      Course (.opening (.loading (.obj [("rows", .obj [("total", .int 7)])])) 0 .new) log m ∧
      m.act .handle = .handles (.loaded (.ok values)) ∧ m.perform? .handle = some m' ∧
      m'.form.store.baseline = Store.rooted values ∧
      m.form.store.get? ⟨["rows", "1"]⟩ = some v ∧ m'.form.store.get? ⟨["rows", "1"]⟩ = some v := by
  obtain ⟨log, m, course, done, passed⟩ := Moment.course_of_test
    (.opening (.loading (.obj [("rows", .obj [("total", .int 7)])])) 0 .new)
    [.ask 0 (.setValue ⟨["rows", "0"]⟩ (.int 2) (some true)), .handle,
      .change ⟨["rows", "1"]⟩ (.int 3), .handle, .pass 100, .finishLoad]
    (fun _ m =>
      (m.act .handle).isHandling (fun s => s.loaded?.any fun values =>
        m.form.store.dirty.paths.all fun q =>
          (q.segments.all fun s => FieldPath.index? s != some FieldPath.lastIndex) &&
          !tangled m.form.store.values (some (Store.rooted values)) ["rows", "1"] q.segments) &&
      m.form.store.dirty.paths.contains ⟨["rows", "1"]⟩ &&
      (m.form.store.get? ⟨["rows", "1"]⟩).isSome)
    (by decide +kernel)
  simp only [Bool.and_eq_true, Act.isHandling_iff, Option.any_eq_true, Message.loaded?_eq_some,
    List.all_eq_true, bne_iff_ne, Bool.not_eq_true', List.contains_iff_mem,
    Option.isSome_iff_exists] at passed
  obtain ⟨⟨⟨_, handles, values, rfl, each⟩, marked⟩, v, live⟩ := passed
  have config : FormConfig.Proper (.loading (.obj [("rows", .obj [("total", .int 7)])])) := by
    have total : (Json.obj [("total", .int 7)]).Proper :=
      .obj (List.pairwise_singleton _ _) (List.forall_mem_singleton.mpr (.int 7))
    exact .obj (List.pairwise_singleton _ _) (List.forall_mem_singleton.mpr total)
  have deeds : ∀ x ∈ log, x.2.Proper := by
    intro x inside
    have among := done x inside
    simp only [List.mem_cons, List.not_mem_nil, or_false] at among
    rcases among with d | d | d | d | d | d <;> rw [d]
    case inl => exact ⟨by simp, .int 2⟩
    case inr.inr.inl => exact ⟨by simp, .int 3⟩
    all_goals trivial
  obtain ⟨m', loaded, baseline, keeps⟩ :=
    edits_outlive_load course config deeds handles fun q inside _ => (each q inside).1
  refine ⟨log, m, m', values, v, course, handles, loaded, baseline, live, ?_⟩
  exact keeps _ marked v live fun q inside _ _ => (each q inside).2

/-- While nothing has been loaded, a total and a row are entered side by side. The loaded values are
empty, so the row makes a list. The list gives way to an object for the total, and the row is
lost. -/
theorem edits_outlive_load_lost :
    ∃ log m m' values v, Course (.opening (.loading .emptyObject) 0 .new) log m ∧
      m.act .handle = .handles (.loaded (.ok values)) ∧ m.perform? .handle = some m' ∧
      ⟨["rows", "0"]⟩ ∈ m.form.store.dirty.paths ∧
      m.form.store.get? ⟨["rows", "0"]⟩ = some v ∧ m'.form.store.get? ⟨["rows", "0"]⟩ = none := by
  obtain ⟨log, m, course, -, passed⟩ := Moment.course_of_test
    (.opening (.loading .emptyObject) 0 .new)
    [.ask 0 (.setValue ⟨["rows", "total"]⟩ (.int 1) (some true)), .handle,
      .ask 1 (.setValue ⟨["rows", "0"]⟩ (.int 2) (some true)), .handle, .pass 100, .finishLoad]
    (fun _ m =>
      (m.act .handle).isHandling (fun s => s.loaded?.isSome) &&
      m.form.store.dirty.paths.contains ⟨["rows", "0"]⟩ &&
      (m.form.store.get? ⟨["rows", "0"]⟩).isSome &&
      (m.perform? .handle).any fun m' => (m'.form.store.get? ⟨["rows", "0"]⟩).isNone)
    (by decide +kernel)
  simp only [Bool.and_eq_true, Act.isHandling_iff, Option.isSome_iff_exists,
    Message.loaded?_eq_some, List.contains_iff_mem, Option.any_eq_true,
    Option.isNone_iff_eq_none] at passed
  obtain ⟨⟨⟨⟨_, handles, values, rfl⟩, marked⟩, v, live⟩, m', loaded, lost⟩ := passed
  exact ⟨log, m, m', values, v, course, handles, loaded, marked, live, lost⟩

end LiveForm
