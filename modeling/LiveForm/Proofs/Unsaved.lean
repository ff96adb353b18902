import LiveForm.Proofs.Extraction
import LiveForm.Proofs.Json.Frame
import LiveForm.Proofs.Json.Origin
import LiveForm.Proofs.Proper
import LiveForm.Proofs.Spelling

/-!
# No unsaved value is missing

* `Store.Reached`: stores that come about by edits, resets and commits;
* `Store.Unsaved`: a scalar among the values that the baseline does not have in its place;
* `Store.Covered`: it is covered by a mark, and without marks the values are those of the baseline;
* `unsaved_extracted`: so it is among the dirty values;
* `unsaved_extracted_lost`: unless the key of an object that is gone names the place as well.
-/

set_option autoImplicit false

namespace LiveForm

open Json DirtyTree

/-! ## Values are the same as themselves -/

namespace Json

mutual

theorem same_self (x : Json) (h : x.WellFormed) : x.same x = true := by
  cases x with
  | null => rfl
  | bool | int | str => exact beq_self_eq_true _
  | float x =>
    cases x with
    | finite => exact decide_eq_true rfl
    | _ => cases h
  | arr xs => exact sameItems_self xs h
  | obj ms => exact sameMembers_self ms h.2

theorem sameItems_self (xs : List Json) (h : WellFormedItems xs) : sameItems xs xs = true := by
  cases xs with
  | nil => rfl
  | cons x xs => exact Bool.and_eq_true_iff.mpr ⟨same_self x h.1, sameItems_self xs h.2⟩

theorem sameMembers_self (ms : List (String × Json)) (h : WellFormedMembers ms) :
    sameMembers ms ms = true := by
  cases ms with
  | nil => rfl
  | cons e ms =>
    rw [sameMembers, beq_self_eq_true, same_self e.2 h.1, sameMembers_self ms h.2]
    rfl

end

end Json

/-! ## Stores -/

namespace Store

/-- Stores that come about by edits, resets and commits. Edits write indices in decimal digits. -/
inductive Reached : Store → Prop where
  | new {defaults : Json} (proper : defaults.Proper) (wellFormed : defaults.WellFormed) :
      Reached (.new defaults)
  | set {s s' : Store} {p : FieldPath} {v : Json} (before : Reached s) (decimal : p.Decimal)
      (value : v.ProperAt p) (written : s.set? p v true = some s') : Reached s'
  | reset {s : Store} {values : Json} (before : Reached s) (proper : values.Proper) :
      Reached (.reset values)
  | commit {s s' : Store} {baseline : Json} {edits : List (FieldPath × Json)} (before : Reached s)
      (proper : baseline.Proper) (each : ∀ e ∈ edits, e.2.Proper)
      (committed : commit? baseline edits = some s') : Reached s'

/-- A scalar, and not `null`, that the baseline does not have in its place. -/
structure Unsaved (s : Store) (p : FieldPath) (v : Json) : Prop where
  canonical : s.values.Canonical p.segments
  live : s.values.get? p = some v
  scalar : v.kind? = none
  valued : v ≠ .null
  differs : ¬ ∃ w, s.baseline.get? p = some w ∧ v.same w = true

/-- Unsaved scalars are covered by marks, and without marks there is nothing unsaved at all. -/
structure Covered (s : Store) : Prop where
  ordered : Ordered (.branch s.dirty.children)
  covers : ∀ p v, s.Unsaved p v → s.dirty.isMarked p = true
  clean : s.isDirty = false → s.values.same s.baseline = true

variable {s s' : Store} {p : FieldPath} {v values baseline : Json}

/-- Marks that tell the values from the baseline cover what is unsaved. -/
theorem Covered.diff (document : values.Document) (document' : baseline.Document) :
    Covered ⟨values, baseline, .diff values baseline⟩ where
  ordered := (DirtyFields.diff_bearing values baseline).ordered
  covers _ _ unsaved := DirtyFields.isMarked_diff document.proper document.object document'.object
    unsaved.canonical unsaved.live unsaved.scalar unsaved.differs
  clean none := by
    have none : (DirtyFields.diff values baseline).isEmpty = true := by simpa [isDirty] using none
    exact (DirtyFields.isEmpty_diff document document').mp none

theorem rooted_wellFormed (h : v.WellFormed) : (rooted v).WellFormed := by
  cases v with
  | obj => exact h
  | _ => exact ⟨.nil, trivial⟩

/-- A new store is as after a reset. -/
theorem reset_eq_new (proper : v.Proper) (wellFormed : v.WellFormed) : reset v = new v := by
  have document := rooted_document proper
  have none : diff? (rooted v) (rooted v) = none :=
    (diff?_eq_none document.proper document.proper).mpr (same_self _ (rooted_wellFormed wellFormed))
  unfold reset new DirtyFields.diff
  rw [none]

/-- An edit covers what it writes, and what it leaves has been covered before. -/
theorem Covered.set (covered : s.Covered) (proper : s.Proper) (decimal : p.Decimal)
    (named : p.segments ≠ []) (written : s.set? p v true = some s') : s'.Covered := by
  obtain ⟨values, write, rfl⟩ := Option.map_eq_some_iff.mp written
  rw [set?_eq_graft? proper.values.object named] at write
  refine ⟨covered.ordered.mark _, fun q w unsaved => ?_, fun clean => ?_⟩
  · refine (isMarked_mark named _ _).trans (Bool.or_eq_true_iff.mpr ?_)
    by_cases below : p.segments <+: q.segments
    · exact .inr (List.isPrefixOf_iff_prefix.mpr below)
    · obtain ⟨old, same, canonical, live⟩ := graft?_origin decimal write unsaved.canonical
        unsaved.live unsaved.scalar unsaved.valued below
      cases same
      exact .inl (covered.covers q w ⟨canonical, live, unsaved.scalar, unsaved.valued,
        unsaved.differs⟩)
  · have none : (mark s.dirty.children p.segments).isEmpty = true := by
      simpa [isDirty, DirtyFields.isEmpty, DirtyFields.mark] using clean
    exact absurd (List.isEmpty_iff.mp none) (mark_ne_nil named)

theorem Reached.covered (h : s.Reached) : s.Proper ∧ s.Covered := by
  induction h with
  | new proper wellFormed =>
    have document := rooted_document proper
    rw [← reset_eq_new proper wellFormed]
    exact ⟨reset_proper proper, .diff document document⟩
  | set _ decimal value written ih =>
    exact ⟨ih.1.set? value.proper written, ih.2.set ih.1 decimal value.named written⟩
  | reset _ proper =>
    have document := rooted_document proper
    exact ⟨reset_proper proper, .diff document document⟩
  | commit _ proper each committed =>
    have kept := commit?_proper proper each committed
    obtain ⟨merged, -, rfl⟩ := Option.map_eq_some_iff.mp committed
    exact ⟨kept, .diff kept.values kept.baseline⟩

/-- In lists on the way of an unsaved scalar only the place of the first item can be marked in two
spellings of which the later one counts. -/
theorem Unsaved.plain (unsaved : s.Unsaved p v)
    (first : ∀ c rest, p.segments = c ++ "0" :: rest → s.values.kindAt? c = some .list →
      ∀ e ∈ level s.dirty.children c, FieldPath.index? e.1 = some 0 → "0" < e.1 → e.2 = .leaf) :
    Plain s.dirty.children s.values p.segments := by
  intro c t rest split list e inside named behind
  obtain ⟨l, there, kind⟩ := Option.bind_eq_some_iff.mp list
  have live : s.values.follow? p.segments = some v := unsaved.live
  rw [split, follow?_append, there, Option.bind_some, follow?] at live
  obtain ⟨x, child, -⟩ := Option.bind_eq_some_iff.mp live
  obtain ⟨i, index⟩ := Option.isSome_iff_exists.mp (index?_of_list kind child)
  obtain rfl := unsaved.canonical c t rest split list i index
  obtain rfl := FieldPath.zero_of_behind (named.trans index) behind
  exact first c rest split list e inside (named.trans index) behind

end Store

/-! ## The main result -/

/-- A scalar among the values of a store, and not `null`, is among the dirty values in its place if
the baseline does not have it there. It may be missing only where its path goes through the first
item of a list while another spelling of that index, such as `00`, has marks below it: that is left
from an object, and what is picked for the later spelling counts. Without marks the values are those
of the baseline. -/
theorem unsaved_extracted {s : Store} (reached : s.Reached) :
    (∀ p v, s.Unsaved p v →
      (∀ c rest, p.segments = c ++ "0" :: rest → s.values.kindAt? c = some .list →
        ∀ e ∈ level s.dirty.children c, FieldPath.index? e.1 = some 0 → "0" < e.1 → e.2 = .leaf) →
      s.dirtyValues.get? p = some v) ∧
    (s.isDirty = false → s.values.same s.baseline = true) := by
  obtain ⟨-, covered⟩ := reached.covered
  refine ⟨fun p v unsaved first => ?_, covered.clean⟩
  exact extract_marked covered.ordered (covered.covers p v unsaved) unsaved.live
    (unsaved.plain first)

/-- The numbers of both rows are edited. The way to the first one has no other spelling of its index
among the marks. -/
theorem unsaved_extracted_rows :
    ∃ s : Store, s.Reached ∧ s.Unsaved ⟨["rows", "0", "n"]⟩ (.int 7) ∧
      s.dirtyValues.get? ⟨["rows", "0", "n"]⟩ = some (.int 7) := by
  let loaded : Json := .obj [("rows", .arr [.obj [("n", .int 3)]])]
  let first : Store := ⟨.obj [("rows", .arr [.obj [("n", .int 7)]])], loaded,
    ⟨[("rows", .branch [("0", .branch [("n", .leaf)])])]⟩⟩
  let both : Store := ⟨.obj [("rows", .arr [.obj [("n", .int 7)], .obj [("n", .int 4)]])], loaded,
    ⟨[("rows", .branch [("0", .branch [("n", .leaf)]), ("1", .branch [("n", .leaf)])])]⟩⟩
  have reached : both.Reached := by
    have new : (Store.new loaded).Reached := by
      refine .new (.member _ (.item (.member _ (.int 3)))) ?_
      exact ⟨List.pairwise_singleton _ _, ⟨⟨List.pairwise_singleton _ _, rfl, trivial⟩, trivial⟩,
        trivial⟩
    have first : first.Reached :=
      new.set (p := ⟨["rows", "0", "n"]⟩) (by decide +kernel) ⟨by simp, .int 7⟩ rfl
    exact first.set (p := ⟨["rows", "1", "n"]⟩) (by decide +kernel) ⟨by simp, .int 4⟩ rfl
  have unsaved : both.Unsaved ⟨["rows", "0", "n"]⟩ (.int 7) := by
    refine ⟨by decide +kernel, rfl, rfl, nofun, ?_⟩
    rintro ⟨w, old, same⟩
    cases old
    exact absurd same (by decide)
  have spelled : ∀ c s rest, ["rows", "0", "n"] = c ++ s :: rest →
      ∀ e ∈ DirtyTree.level both.dirty.children c, ¬ (FieldPath.index? e.1 = some 0 ∧ "0" < e.1) :=
    forall_cut_iff.mpr (by decide +kernel)
  refine ⟨both, reached, unsaved, (unsaved_extracted reached).1 _ _ unsaved ?_⟩
  intro c rest split _ e inside zero behind
  exact absurd ⟨zero, behind⟩ (spelled c "0" rest split e inside)

/-- A list becomes an object while a member of its first item is marked that reads as an index. When
a list comes to stand there again, that mark names its first item in another spelling, and what is
picked for it takes the place of what the edit has written there. -/
theorem unsaved_extracted_lost :
    ∃ (s : Store) (p : FieldPath) (v : Json), s.Reached ∧ s.Unsaved p v ∧
      s.dirtyValues.get? p ≠ some v := by
  let baseline : Json := .obj [("a", .arr [.obj [("00", .obj [("z", .int 0)])]])]
  let item : Json := .obj [("00", .obj [("z", .int 1)])]
  let committed : Store := ⟨.obj [("a", .arr [item])], baseline,
    ⟨[("a", .branch [("0", .branch [("00", .branch [("z", .leaf)])])])]⟩⟩
  let replaced : Store := ⟨.obj [("a", .obj [("x", .int 5)])], baseline,
    ⟨[("a", .branch [("0", .branch [("00", .branch [("z", .leaf)])]), ("x", .leaf)])]⟩⟩
  let again : Store := ⟨.obj [("a", .obj [("0", .arr [.obj [("q", .int 7)]]), ("x", .int 5)])],
    baseline,
    ⟨[("a", .branch [("0", .branch [("0", .branch [("q", .leaf)]), ("00", .branch [("z", .leaf)])]),
      ("x", .leaf)])]⟩⟩
  have reached : again.Reached := by
    have new : (Store.new .emptyObject).Reached := .new (.obj .nil (by simp)) ⟨.nil, trivial⟩
    have committed : committed.Reached := by
      have kept : Store.commit? baseline [(⟨["a", "0"]⟩, item)] = some committed := rfl
      refine new.commit ?_ ?_ kept
      · exact .member _ (.item (.member _ (.member _ (.int 0))))
      · exact List.forall_mem_singleton.mpr (.member _ (.member _ (.int 1)))
    have replaced : replaced.Reached :=
      committed.set (p := ⟨["a", "x"]⟩) (by decide +kernel) ⟨by simp, .int 5⟩ rfl
    exact replaced.set (p := ⟨["a", "0", "0", "q"]⟩) (by decide +kernel) ⟨by simp, .int 7⟩ rfl
  refine ⟨again, ⟨["a", "0", "0", "q"]⟩, .int 7, reached, ?_, ?_⟩
  · refine ⟨by decide +kernel, rfl, rfl, nofun, ?_⟩
    rintro ⟨w, old, -⟩
    cases old
  · have lost : again.dirtyValues.get? ⟨["a", "0", "0", "q"]⟩ = none := rfl
    rw [lost]
    nofun

end LiveForm
