import LiveForm.Proofs.Coverage

/-!
# What a store keeps

A store is written to, reset and given a new baseline in any order, with any values.

* `Store.Operation`, `Store.obey?`, `Store.after?`: what can be done to a store, and the store after a
  history;
* `Store.Sound`: values and baseline are objects, and every branch of the marks bears leaves;
* `Store.Sound.obey?`, `Store.after?_sound`: each operation keeps that, and so does a history;
* `store_sound`: so a store is dirty as long as a leaf is left, and a path that leads to a branch has
  a marked path below it.
-/

set_option autoImplicit false

namespace LiveForm

open Json DirtyTree

namespace DirtyTree

variable {t u : DirtyTree} {m below : List (String × DirtyTree)} {q : List String}

/-- What a path leads to in a tree that bears leaves bears leaves. -/
theorem Bears.at? (h : Bears t) (there : t.at? q = some u) : Bears u := by
  induction q generalizing t with
  | nil =>
    cases there
    exact h
  | cons s q ih =>
    cases h with
    | leaf => cases there
    | branch _ _ each =>
      obtain ⟨c, found, onward⟩ := Option.bind_eq_some_iff.mp there
      exact ih (each _ (Assoc.mem_of_find? found)) onward

theorem Bearing.at? (h : Bearing m) (inner : q ≠ []) (there : (branch m).at? q = some u) :
    Bears u := by
  obtain ⟨s, rest, rfl⟩ := List.exists_cons_of_ne_nil inner
  obtain ⟨c, found, onward⟩ := Option.bind_eq_some_iff.mp there
  exact (h.each _ (Assoc.mem_of_find? found)).at? onward

/-- A branch is not bare, and a leaf is at the end of it. -/
theorem Bears.leads (h : Bears (.branch below)) :
    below ≠ [] ∧ ∃ r, r ≠ [] ∧ (DirtyTree.branch below).at? r = some DirtyTree.leaf := by
  constructor
  · cases h with
    | branch some _ _ => exact some
  · obtain ⟨r, way⟩ := List.exists_mem_of_ne_nil _ (leafPaths_ne_nil h)
    have leaf := (mem_leafPaths h r).mp way
    refine ⟨r, ?_, leaf⟩
    rintro rfl
    cases leaf

end DirtyTree

namespace DirtyFields

variable {d : DirtyFields} {p : FieldPath} {q : List String} {below : List (String × DirtyTree)}

/-- What is reached by a path that leads to a branch is not covered. -/
theorem not_isMarked_of_branch (there : (branch d.children).at? p.segments = some (.branch below)) :
    d.isMarked p = false := by
  apply Bool.eq_false_iff.mpr
  intro covered
  obtain ⟨r, leaf, above⟩ := isMarked_iff.mp covered
  obtain ⟨rest, split⟩ := above
  rw [← split, at?_append, leaf, Option.bind_some] at there
  cases rest <;> cases there

theorem isMarked_of_leaf (leaf : d.HasLeaf q) : d.isMarked ⟨q⟩ = true :=
  isMarked_iff.mpr ⟨q, leaf, List.prefix_rfl⟩

/-- A path is touched iff it is covered or a path below it is marked. -/
theorem touches_iff_below (h : Bearing d.children) (named : p.segments ≠ []) :
    d.touches p = true ↔
      d.isMarked p = true ∨ ∃ r, r ≠ [] ∧ d.HasLeaf (p.segments ++ r) := by
  rw [touches_iff h, imp_iff_right named]
  constructor
  · rintro ⟨q, leaf, above | ⟨r, rfl⟩⟩
    · exact .inl (isMarked_iff.mpr ⟨q, leaf, above⟩)
    · by_cases whole : r = []
      · rw [whole, List.append_nil] at leaf
        exact .inl (isMarked_iff.mpr ⟨p.segments, leaf, List.prefix_rfl⟩)
      · exact .inr ⟨r, whole, leaf⟩
  · rintro (covered | ⟨r, -, leaf⟩)
    · obtain ⟨q, leaf, above⟩ := isMarked_iff.mp covered
      exact ⟨q, leaf, .inl above⟩
    · exact ⟨_, leaf, .inr (List.prefix_append _ _)⟩

end DirtyFields

namespace Store

/-- What can be done to a store. -/
inductive Operation where
  | set (p : FieldPath) (v : Json) (dirty : Bool)
  | reset (values : Json)
  | commit (baseline : Json) (edits : List (FieldPath × Json))

/-- A write that asks for an impossible list leaves no store. -/
def obey? (s : Store) : Operation → Option Store
  | .set p v dirty => s.set? p v dirty
  | .reset values => some (reset values)
  | .commit baseline edits => commit? baseline edits

/-- The store after a history that starts with default values. -/
def after? (defaults : Json) (history : List Operation) : Option Store :=
  history.foldlM obey? (new defaults)

/-- Values and baseline are objects, and every branch of the marks bears leaves. -/
structure Sound (s : Store) : Prop where
  values : s.values.kind? = some .object
  baseline : s.baseline.kind? = some .object
  marks : Bearing s.dirty.children

variable {s s' : Store} {t t' v : Json} {edits : List (FieldPath × Json)} {x : Operation}

theorem writeAll?_object (h : t.kind? = some .object) (written : writeAll? t edits = some t') :
    t'.kind? = some .object := by
  induction edits generalizing t with
  | nil =>
    cases written
    exact h
  | cons e edits ih =>
    obtain ⟨u, first, others⟩ := Option.bind_eq_some_iff.mp written
    exact ih (write?_object h first) others

theorem new_sound (v : Json) : (new v).Sound := ⟨rooted_object v, rooted_object v, .empty⟩

theorem Sound.set? {p : FieldPath} {dirty : Bool} (h : s.Sound)
    (written : s.set? p v dirty = some s') : s'.Sound := by
  obtain ⟨values, write, rfl⟩ := Option.map_eq_some_iff.mp written
  refine ⟨write?_object h.values write, h.baseline, ?_⟩
  cases dirty with
  | false => exact h.marks
  | true => exact h.marks.mark p.segments

theorem reset_sound (v : Json) : (reset v).Sound :=
  ⟨rooted_object v, rooted_object v, DirtyFields.diff_bearing _ _⟩

theorem commit?_sound (committed : commit? v edits = some s) : s.Sound := by
  obtain ⟨merged, written, rfl⟩ := Option.map_eq_some_iff.mp committed
  exact ⟨writeAll?_object (rooted_object v) written, rooted_object v, DirtyFields.diff_bearing _ _⟩

theorem Sound.obey? (h : s.Sound) (done : s.obey? x = some s') : s'.Sound := by
  cases x with
  | set p v dirty => exact h.set? done
  | reset values =>
    cases done
    exact reset_sound values
  | commit baseline edits => exact commit?_sound done

theorem Sound.foldlM_obey? {history : List Operation} (h : s.Sound)
    (done : history.foldlM Store.obey? s = some s') : s'.Sound := by
  induction history generalizing s with
  | nil =>
    cases done
    exact h
  | cons x history ih =>
    rw [List.foldlM_cons] at done
    obtain ⟨u, first, others⟩ := Option.bind_eq_some_iff.mp done
    exact ih (h.obey? first) others

theorem after?_sound {defaults : Json} {history : List Operation}
    (reached : after? defaults history = some s) : s.Sound :=
  (new_sound defaults).foldlM_obey? reached

end Store

open Store

/-- Whatever has been done to a store: its values and its baseline are objects. No branch of its marks
is bare, and each leads to a leaf. The store is dirty iff there is a leaf. A path is touched iff it is
covered or a path below it is marked; so a path that leads to a branch, which is touched and not
covered, has a marked path below it. -/
theorem store_sound {defaults : Json} {history : List Operation} {s : Store}
    (reached : after? defaults history = some s) :
    (∃ ms, s.values = .obj ms) ∧ (∃ ms, s.baseline = .obj ms) ∧
    (∀ q below, q ≠ [] → (branch s.dirty.children).at? q = some (.branch below) →
      below ≠ [] ∧ ∃ r, r ≠ [] ∧ s.dirty.HasLeaf (q ++ r)) ∧
    (s.isDirty = true ↔ ∃ q, s.dirty.HasLeaf q) ∧
    ∀ p : FieldPath, p.segments ≠ [] →
      (s.dirty.touches p = true ↔
        s.dirty.isMarked p = true ∨ ∃ r, r ≠ [] ∧ s.dirty.HasLeaf (p.segments ++ r)) ∧
      ∀ below, (branch s.dirty.children).at? p.segments = some (.branch below) →
        s.dirty.touches p = true ∧ s.dirty.isMarked p = false ∧
          ∃ r, r ≠ [] ∧ s.dirty.isMarked ⟨p.segments ++ r⟩ = true := by
  have sound := after?_sound reached
  have leads : ∀ q below, q ≠ [] → (branch s.dirty.children).at? q = some (.branch below) →
      below ≠ [] ∧ ∃ r, r ≠ [] ∧ s.dirty.HasLeaf (q ++ r) := by
    intro q below inner there
    obtain ⟨some, r, onward, leaf⟩ := (sound.marks.at? inner there).leads
    refine ⟨some, r, onward, ?_⟩
    rw [DirtyFields.HasLeaf, at?_append, there]
    exact leaf
  refine ⟨kind?_eq_object sound.values, kind?_eq_object sound.baseline, leads, ?_, ?_⟩
  · rw [isDirty, Bool.not_eq_true', DirtyFields.isEmpty_iff sound.marks]
  · intro p named
    have touched := DirtyFields.touches_iff_below sound.marks named
    refine ⟨touched, ?_⟩
    intro below there
    obtain ⟨-, r, onward, leaf⟩ := leads p.segments below named there
    exact ⟨touched.mpr (.inr ⟨r, onward, leaf⟩), DirtyFields.not_isMarked_of_branch there, r, onward,
      DirtyFields.isMarked_of_leaf leaf⟩

/-- Default values that are no object, a row that is written but not marked, a new baseline with an edit
on top of it, and a marked row. The first row and the number of the second are marked then, and the
branch of the rows leads to them. -/
theorem store_sound_rows :
    ∃ s, after? (.arr [.int 1]) [.set ⟨["rows", "0", "n"]⟩ (.int 3) false,
        .commit (.obj [("rows", .arr [])]) [(⟨["rows", "0", "n"]⟩, .int 4)],
        .set ⟨["rows", "1", "n"]⟩ (.int 5) true] = some s ∧
      s.dirty = ⟨[("rows", .branch [("0", .leaf), ("1", .branch [("n", .leaf)])])]⟩ ∧
      (∃ ms, s.values = .obj ms) ∧ s.isDirty = true ∧ s.dirty.touches ⟨["rows"]⟩ = true ∧
      s.dirty.isMarked ⟨["rows"]⟩ = false ∧
      ∃ r, r ≠ [] ∧ s.dirty.isMarked ⟨"rows" :: r⟩ = true := by
  have reached : after? (.arr [.int 1]) [.set ⟨["rows", "0", "n"]⟩ (.int 3) false,
      .commit (.obj [("rows", .arr [])]) [(⟨["rows", "0", "n"]⟩, .int 4)],
      .set ⟨["rows", "1", "n"]⟩ (.int 5) true] =
      some ⟨.obj [("rows", .arr [.obj [("n", .int 4)], .obj [("n", .int 5)]])],
        .obj [("rows", .arr [])],
        ⟨[("rows", .branch [("0", .leaf), ("1", .branch [("n", .leaf)])])]⟩⟩ := rfl
  obtain ⟨values, -, -, dirty, each⟩ := store_sound reached
  obtain ⟨touched, bare, below⟩ := (each ⟨["rows"]⟩ (by simp)).2 _ rfl
  exact ⟨_, reached, rfl, values, dirty.mpr ⟨["rows", "0"], rfl⟩, touched, bare, below⟩

end LiveForm
