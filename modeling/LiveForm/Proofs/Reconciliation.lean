import LiveForm.Proofs.Content
import LiveForm.Proofs.Difference
import LiveForm.Proofs.Proper

/-!
# Edits made in flight survive the success of a submission

When a submission has succeeded, its values become the baseline and the edits made meanwhile are
written onto them. No edit is lost on the way, and what is marked afterwards is what differs from
the baseline.

* `Store.commit?_keeps`: what a store keeps when it takes a new baseline;
* `edits_survive`: so it is for a form, whatever was done before.
-/

set_option autoImplicit false

namespace LiveForm

open Json

/-- Lists that a fitting path goes through in `l` and in `m` are the same. -/
theorem Json.Canonical.carry {l m v : Json} {q : List String} (h : l.Canonical q)
    (fits : Fits l (some m) q) (there : m.follow? q = some v) : m.Canonical q := by
  intro c s rest split list
  subst split
  exact h c s rest rfl ((fits.kindAt? there).symm.trans list)

/-- Edits taken from proper values survive a new baseline, if the containers on their way are of the
same kinds there. Each of them is marked afterwards iff it differs from the baseline. -/
theorem Store.commit?_keeps {l base : Json} {edits : List (FieldPath × Json)} (proper : l.Proper)
    (document : base.Document)
    (each : ∀ e ∈ edits, e.2.ProperAt e.1 ∧ l.get? e.1 = some e.2 ∧ l.SameKinds base e.1.segments) :
    ∃ store, Store.commit? base edits = some store ∧ store.baseline = base ∧
      ∀ e ∈ edits, store.get? e.1 = some e.2 ∧
        (l.Canonical e.1.segments → (store.dirty.touches e.1 = true ↔
          ¬ ∃ w, base.get? e.1 = some w ∧ e.2.same w = true)) := by
  have fitting : ∀ e ∈ edits, e.1.segments ≠ [] ∧ l.follow? e.1.segments = some e.2 ∧
      Fits l (some base) e.1.segments := by
    intro e inside
    obtain ⟨edit, live, kinds⟩ := each e inside
    exact ⟨edit.named, live, kinds.fits live⟩
  obtain ⟨merged, written, object, keeps, reads⟩ :=
    writeAll?_restores proper document.object fitting
  have whole := rooted_of_document document
  have properMerged : merged.Proper :=
    (writeAll?_document document (fun e inside => (each e inside).1.proper) written).proper
  refine ⟨⟨merged, base, .diff merged base⟩, ?_, rfl, ?_⟩
  · rw [commit?, whole, written]
    rfl
  · intro e inside
    obtain ⟨edit, live, kinds⟩ := each e inside
    have there := reads e inside
    refine ⟨there, ?_⟩
    intro canonical
    have fits := kinds.fits live
    have fits' := (keeps _ fits).1
    exact DirtyFields.touches_diff properMerged document.proper object document.object edit.named
      (fits'.carry fits there) (canonical.carry fits' there) there

/-! ## The settlement -/

theorem Turn.andThen_content {t : Turn} {act : Scene → Turn}
    (next : ∀ s, (act s).Keeps s) : (t.andThen act).scene.form.content = t.scene.form.content :=
  Turn.Keeps.andThen (s := t.scene) rfl next

namespace Scene

variable {s : Scene} {p : Pending} {store : Store}

theorem acknowledge_store {changed : List FieldPath} (edited : p.hadDirty = true)
    (current : p.superseded = false)
    (committed : Store.commit? p.values (s.form.liveEdits changed) = some store) :
    (s.acknowledge p changed).scene.form.content.store = store := by
  unfold acknowledge
  simp only [edited, current, committed, Bool.not_true, Bool.or_self, Bool.false_eq_true, if_false]
  exact congrArg Content.store (answerAll_content _ _ _)

/-- What comes after the acknowledgement, the next submission included, changes no values. -/
theorem handleSettled_store (now : Nat) (flight : s.form.pending = some p)
    (edited : p.hadDirty = true) (current : p.superseded = false)
    (committed : Store.commit? p.values (s.form.liveEdits s.form.changedDuringSubmit) = some store) :
    (s.handleSettled now p.cycle none).land.form.store = store := by
  refine (congrArg Content.store (Turn.Ends.land_content _)).trans ?_
  unfold handleSettled
  rw [flight]
  dsimp only
  rw [if_neg (not_not_intro rfl)]
  rw [Turn.andThen_content]
  · exact acknowledge_store edited current committed
  · intro s'
    refine Turn.Keeps.andThen (.trans (publish_keeps _ _) ?_) ?_
    · rw [scheduleLoaderHide_content, releaseToken_content]
    · intro s''
      split
      · exact (startSubmission_keeps _ _ _).trans rfl
      · exact publish_keeps _ _

end Scene

theorem Form.mem_liveEdits {f : Form} {changed : List FieldPath} {e : FieldPath × Json} :
    e ∈ f.liveEdits changed ↔ e.1 ∈ changed ∧ f.store.get? e.1 = some e.2 := by
  obtain ⟨q, v⟩ := e
  simp only [liveEdits, List.mem_filterMap, Option.map_eq_some_iff, Prod.mk.injEq]
  constructor
  · rintro ⟨path, inside, w, found, rfl, rfl⟩
    exact ⟨inside, found⟩
  · rintro ⟨inside, found⟩
    exact ⟨q, inside, v, found, rfl, rfl⟩

/-- A submission that began with edits and was not overtaken by a reset has succeeded. Then what was
submitted becomes the baseline. Each path edited in the meantime has the value after the settlement
that it had before; if it writes indices in decimal digits, it is touched by a mark iff the value
differs from what was submitted.

On the way of such a path the containers must be of the kinds that were submitted, and where none
was submitted, of the kinds that a write would make. -/
theorem edits_survive {c : FormConfig} {now : Nat} {guard : UnloadGuard} {m : Moment} {log : Log}
    {d : Deed} {p : Pending} (course : Course (.opening c now guard) log m) (config : c.Proper)
    (deeds : ∀ x ∈ log, x.2.Proper) (flight : m.form.pending = some p) (edited : p.hadDirty = true)
    (current : p.superseded = false) (handles : m.act d = .handles (.settled p.cycle none))
    (kinds : ∀ q ∈ m.form.changedDuringSubmit, m.form.store.values.has q = true →
      m.form.store.values.SameKinds p.values q.segments) :
    ∃ m', m.perform? d = some m' ∧ m'.form.store.baseline = p.values ∧
      ∀ q ∈ m.form.changedDuringSubmit, ∀ v, m.form.store.get? q = some v →
        m'.form.store.get? q = some v ∧
          (m.form.store.values.Canonical q.segments → (m'.form.store.dirty.touches q = true ↔
            ¬ ∃ w, p.values.get? q = some w ∧ v.same w = true)) := by
  have holds := proper course config deeds
  have values := holds.store.values.proper
  have each : ∀ e ∈ m.form.liveEdits m.form.changedDuringSubmit, e.2.ProperAt e.1 ∧
      m.form.store.values.get? e.1 = some e.2 ∧
      m.form.store.values.SameKinds p.values e.1.segments := by
    intro e inside
    obtain ⟨changed, live⟩ := Form.mem_liveEdits.mp inside
    have there := Option.isSome_iff_exists.mpr ⟨_, live⟩
    exact ⟨⟨holds.changed _ changed, values.follow? live⟩, live, kinds _ changed there⟩
  obtain ⟨store, committed, baseline, keeps⟩ :=
    Store.commit?_keeps values (holds.pending p flight) each
  obtain ⟨rest, _, done⟩ := Moment.perform?_of_handles handles
  have settled := Scene.handleSettled_store (s := m.scene.update fun f => { f with mailbox := rest })
    m.now flight edited current committed
  refine ⟨_, done, (congrArg Store.baseline settled).trans baseline, ?_⟩
  intro q changed v live
  have kept := keeps (q, v) (Form.mem_liveEdits.mpr ⟨changed, live⟩)
  rw [← settled] at kept
  exact kept

/-- The submission that a notice tells the success of. -/
def Message.success? : Message → Option Nat
  | .settled cycle none => some cycle
  | _ => none

theorem Message.success?_eq_some {m : Message} {cycle : Nat} :
    m.success? = some cycle ↔ m = .settled cycle none := by
  cases m with
  | settled k failure => cases failure <;> simp [success?]
  | _ => simp [success?]

/-- While a renamed entry is saved a tag is added to it. The tag is there afterwards, and unsaved. -/
theorem edits_survive_tag :
    ∃ log m m' p v, Course (.opening (.sample ⟨false, none⟩
        (.obj [("name", .str "old"), ("tags", .arr [.str "red"])])) 0 .new) log m ∧
      m.form.pending = some p ∧ m.perform? .handle = some m' ∧
      m'.form.store.baseline = p.values ∧ m.form.store.get? ⟨["tags", "1"]⟩ = some v ∧
      m'.form.store.get? ⟨["tags", "1"]⟩ = some v ∧
      m'.form.store.dirty.touches ⟨["tags", "1"]⟩ = true := by
  obtain ⟨log, m, course, done, passed⟩ := Moment.course_of_test
    (.opening (.sample ⟨false, none⟩
      (.obj [("name", .str "old"), ("tags", .arr [.str "red"])])) 0 .new)
    [.change ⟨["name"]⟩ (.str "new"), .handle, .ask 0 .submit, .handle, .startCall 0 0,
      .change ⟨["tags", "1"]⟩ (.str "blue"), .handle, .pass 5, .endCall 0 0, .finishRun 0]
    (fun _ m => m.form.pending.any fun p => p.hadDirty && !p.superseded &&
      (m.act .handle).isHandling (fun s => s.success? == some p.cycle) &&
      m.form.changedDuringSubmit.all (fun q => m.form.store.values.SameKinds p.values q.segments) &&
      m.form.changedDuringSubmit.contains ⟨["tags", "1"]⟩ &&
      (m.form.store.get? ⟨["tags", "1"]⟩).isSome && (p.values.get? ⟨["tags", "1"]⟩).isNone &&
      decide (m.form.store.values.Canonical ["tags", "1"]))
    (by decide +kernel)
  simp only [Bool.and_eq_true, Bool.not_eq_true', Option.any_eq_true, beq_iff_eq, decide_eq_true_eq,
    List.all_eq_true, List.contains_iff_mem, Option.isSome_iff_exists, Option.isNone_iff_eq_none,
    Act.isHandling_iff, Message.success?_eq_some] at passed
  obtain ⟨p, flight, ⟨⟨⟨⟨⟨⟨edited, current⟩, _, handles, rfl⟩, kinds⟩, noted⟩, v, live⟩, fresh⟩,
    canonical⟩ := passed
  have config : FormConfig.Proper (.sample ⟨false, none⟩
      (.obj [("name", .str "old"), ("tags", .arr [.str "red"])])) := by
    have tags : (Json.arr [.str "red"]).Proper :=
      .arr (by decide) (List.forall_mem_singleton.mpr (.str "red"))
    refine .obj (List.pairwise_pair.mpr (by decide)) (List.forall_mem_cons.mpr ⟨.str "old", ?_⟩)
    exact List.forall_mem_singleton.mpr tags
  have deeds : ∀ x ∈ log, x.2.Proper := by
    intro x inside
    have among := done x inside
    simp only [List.mem_cons, List.not_mem_nil, or_false] at among
    rcases among with d | d | d | d | d | d | d | d | d | d <;> rw [d]
    case inl => exact ⟨by simp, .str "new"⟩
    case inr.inr.inr.inr.inr.inl => exact ⟨by simp, .str "blue"⟩
    all_goals trivial
  obtain ⟨m', settled, baseline, keeps⟩ :=
    edits_survive course config deeds flight edited current handles fun q inside _ => kinds q inside
  obtain ⟨kept, marked⟩ := keeps _ noted v live
  refine ⟨log, m, m', p, v, course, flight, settled, baseline, live, kept, ?_⟩
  exact (marked canonical).mpr (by simp [fresh])

end LiveForm
