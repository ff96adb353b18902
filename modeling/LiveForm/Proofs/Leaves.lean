import LiveForm.Proofs.Difference

/-!
# The leaves of the marks

A leaf stands for a marked path. The marks of a form list their paths by walking the tree.

* `DirtyTree.at?`: what a path leads to in a tree;
* `DirtyTree.Bears`: each branch of a tree ends in leaves, and has its segments in order;
* `DirtyTree.Bearing`: so does all below a node, and marks and differences keep it so;
* `DirtyTree.mem_childPaths`, `DirtyTree.childPaths_sorted`: the walk comes by each leaf once, in the
  order of the paths;
* `DirtyFields.mem_paths`, `DirtyFields.paths_sorted`: a path is listed iff it leads to a leaf and
  has no empty segment.
-/

set_option autoImplicit false

namespace LiveForm

open Json

namespace DirtyTree

variable {s : String} {t : DirtyTree} {m : List (String × DirtyTree)} {p q : List String}

/-- The tree that a path leads to. -/
def at? : DirtyTree → List String → Option DirtyTree
  | t, [] => some t
  | .leaf, _ :: _ => none
  | .branch children, s :: rest => (Assoc.find? s children).bind fun t => t.at? rest

/-! ## Trees that bear leaves -/

/-- No branch of a tree is bare, and each has its segments in order. -/
inductive Bears : DirtyTree → Prop where
  | leaf : Bears .leaf
  | branch {children : List (String × DirtyTree)} (some : children ≠ [])
      (sorted : Assoc.Sorted children) (each : ∀ e ∈ children, Bears e.2) :
      Bears (.branch children)

/-- All that is below a node bears leaves, in the order of its segments. -/
structure Bearing (m : List (String × DirtyTree)) : Prop where
  sorted : Assoc.Sorted m
  each : ∀ e ∈ m, Bears e.2

theorem Bears.children {children : List (String × DirtyTree)} (h : Bears (.branch children)) :
    Bearing children := by
  cases h with
  | branch _ sorted each => exact ⟨sorted, each⟩

theorem Bearing.bears (h : Bearing m) (some : m ≠ []) : Bears (.branch m) :=
  .branch some h.sorted h.each

theorem Bearing.empty : Bearing [] := ⟨.nil, by simp⟩

theorem Bearing.insert (h : Bearing m) (s : String) (below : Bears t) :
    Bearing (Assoc.insert s t m) := by
  refine ⟨h.sorted.insert, fun e inside => ?_⟩
  rcases Assoc.mem_insert inside with rfl | old
  · exact below
  · exact h.each e old

theorem Bearing.foldl_insert {keys : List (String × DirtyTree)} (h : Bearing m)
    (each : ∀ e ∈ keys, Bears e.2) :
    Bearing (keys.foldl (fun m e => Assoc.insert e.1 e.2 m) m) := by
  induction keys generalizing m with
  | nil => exact h
  | cons e keys ih =>
    obtain ⟨first, others⟩ := List.forall_mem_cons.mp each
    exact ih (h.insert e.1 first) others

theorem mark_ne_nil (named : p ≠ []) : mark m p ≠ [] := by
  cases p with
  | nil => exact absurd rfl named
  | cons s p =>
    cases p with
    | nil => exact Assoc.insert_ne_nil
    | cons next p =>
      rw [mark]
      split
      · rename_i there
        exact List.ne_nil_of_mem (Assoc.mem_of_find? there)
      · exact Assoc.insert_ne_nil
      · exact Assoc.insert_ne_nil

theorem Bearing.mark (h : Bearing m) (p : List String) : Bearing (mark m p) := by
  induction p generalizing m with
  | nil => exact h
  | cons s p ih =>
    cases p with
    | nil => exact h.insert s .leaf
    | cons next p =>
      have some {m : List (String × DirtyTree)} : DirtyTree.mark m (next :: p) ≠ [] :=
        mark_ne_nil (List.cons_ne_nil next p)
      rw [DirtyTree.mark]
      split
      · exact h
      · rename_i below there
        have below := (h.each _ (Assoc.mem_of_find? there)).children
        exact h.insert s ((ih below).bears some)
      · exact h.insert s ((ih .empty).bears some)

theorem Bearing.addDifference {d : Option DirtyTree} (h : Bearing m) (s : String)
    (below : ∀ t, d = some t → Bears t) : Bearing (addDifference s d m) := by
  cases d with
  | none => exact h
  | some t => exact h.insert s (below t rfl)

theorem Bearing.branch? (h : Bearing m) : ∀ t, branch? m = some t → Bears t := by
  intro t eq
  unfold DirtyTree.branch? at eq
  split at eq
  · cases eq
  · rename_i some
    cases eq
    exact h.bears (by simpa using some)

theorem Bearing.addMissing {ms ns : List (String × Json)} (h : Bearing m) :
    Bearing (addMissing ms ns m) := by
  induction ns with
  | nil => exact h
  | cons e ns ih =>
    rw [DirtyTree.addMissing]
    split
    · exact ih
    · exact ih.insert _ .leaf

theorem addPlaces_bearing (i count : Nat) : Bearing (addPlaces i count) := by
  induction count generalizing i with
  | zero => exact .empty
  | succ count ih => exact (ih (i + 1)).insert _ .leaf

theorem found?_bears {x : Json} {o : Option Json} (each : ∀ y t, diff? x y = some t → Bears t) :
    ∀ t, found? x o = some t → Bears t := by
  intro t eq
  cases o with
  | none =>
    cases eq
    exact .leaf
  | some y => exact each y t eq

theorem diff?_bears_unlike {a b : Json} (h : a.kind? ≠ b.kind? ∨ a.kind? = none) :
    ∀ t, diff? a b = some t → Bears t := by
  intro t eq
  rw [diff?_unlike h, Option.ite_none_left_eq_some] at eq
  exact Option.some.inj eq.2 ▸ .leaf

mutual

/-- The difference of two values bears leaves. -/
theorem diff?_bears (a b : Json) : ∀ t, diff? a b = some t → Bears t := by
  cases a with
  | obj ms =>
    cases b with
    | obj ns =>
      rw [diff?]
      exact (diffMembers_bearing ms ns).addMissing.branch?
    | _ => exact diff?_bears_unlike (.inl (by simp [kind?]))
  | arr xs =>
    cases b with
    | arr ys =>
      rw [diff?]
      exact (diffItems_bearing 0 xs ys).branch?
    | _ => exact diff?_bears_unlike (.inl (by simp [kind?]))
  | _ => exact diff?_bears_unlike (.inr rfl)

theorem diffMembers_bearing (ms ns : List (String × Json)) : Bearing (diffMembers ms ns) := by
  cases ms with
  | nil =>
    rw [diffMembers]
    exact .empty
  | cons e ms =>
    rw [diffMembers_cons]
    exact (diffMembers_bearing ms ns).addDifference _ (found?_bears (diff?_bears e.2))

theorem diffItems_bearing (i : Nat) (xs ys : List Json) : Bearing (diffItems i xs ys) := by
  cases xs with
  | nil =>
    rw [diffItems]
    exact addPlaces_bearing _ _
  | cons x xs =>
    rw [diffItems_cons]
    exact (diffItems_bearing (i + 1) xs ys.tail).addDifference _ (found?_bears (diff?_bears x))

end

/-! ## The walk -/

theorem childPaths_eq (m : List (String × DirtyTree)) :
    childPaths m = m.flatMap fun e => (leafPaths e.2).map (e.1 :: ·) := by
  induction m with
  | nil => rfl
  | cons e m ih =>
    rw [childPaths, ih]
    rfl

/-- The walk leads through the children. -/
theorem mem_childPaths_iff :
    q ∈ childPaths m ↔ ∃ s t rest, (s, t) ∈ m ∧ rest ∈ leafPaths t ∧ q = s :: rest := by
  rw [childPaths_eq, List.mem_flatMap]
  constructor
  · rintro ⟨⟨s, t⟩, inside, way⟩
    obtain ⟨rest, onward, rfl⟩ := List.mem_map.mp way
    exact ⟨s, t, rest, inside, onward, rfl⟩
  · rintro ⟨s, t, rest, inside, onward, rfl⟩
    exact ⟨(s, t), inside, List.mem_map_of_mem onward⟩

theorem mem_childPaths_of (sorted : Assoc.Sorted m)
    (each : ∀ e ∈ m, ∀ q, q ∈ leafPaths e.2 ↔ e.2.at? q = some .leaf) :
    q ∈ childPaths m ↔ (branch m).at? q = some .leaf := by
  rw [mem_childPaths_iff]
  constructor
  · rintro ⟨s, t, rest, inside, onward, rfl⟩
    rw [at?, sorted.find?_eq_some.mpr inside]
    exact (each _ inside rest).mp onward
  · intro leaf
    cases q with
    | nil => cases leaf
    | cons s rest =>
      obtain ⟨t, found, leaf⟩ := Option.bind_eq_some_iff.mp leaf
      have inside := Assoc.mem_of_find? found
      exact ⟨s, t, rest, inside, (each _ inside rest).mpr leaf, rfl⟩

theorem childPaths_sorted_of (sorted : Assoc.Sorted m)
    (each : ∀ e ∈ m, (leafPaths e.2).Pairwise (· < ·)) : (childPaths m).Pairwise (· < ·) := by
  rw [childPaths_eq, List.pairwise_flatMap]
  constructor
  · intro e inside
    rw [List.pairwise_map]
    apply (each e inside).imp
    intro p q before
    exact List.cons_lt_cons_iff.mpr (.inr ⟨rfl, before⟩)
  · apply sorted.imp
    intro a b before p first q next
    obtain ⟨p, -, rfl⟩ := List.mem_map.mp first
    obtain ⟨q, -, rfl⟩ := List.mem_map.mp next
    exact List.cons_lt_cons_iff.mpr (.inl before)

/-- The walk through a tree that bears leaves comes by each of them. -/
theorem mem_leafPaths (h : Bears t) (q : List String) :
    q ∈ leafPaths t ↔ t.at? q = some .leaf := by
  induction h generalizing q with
  | leaf => cases q <;> simp [leafPaths, at?]
  | branch _ sorted _ ih =>
    rw [leafPaths]
    exact mem_childPaths_of sorted ih

theorem leafPaths_sorted (h : Bears t) : (leafPaths t).Pairwise (· < ·) := by
  induction h with
  | leaf =>
    rw [leafPaths]
    exact List.pairwise_singleton _ _
  | branch _ sorted _ ih =>
    rw [leafPaths]
    exact childPaths_sorted_of sorted ih

/-- There is a leaf at the end of a branch. -/
theorem leafPaths_ne_nil (h : Bears t) : leafPaths t ≠ [] := by
  induction h with
  | leaf => simp [leafPaths]
  | @branch children some _ _ ih =>
    obtain ⟨e, inside⟩ := List.exists_mem_of_ne_nil children some
    obtain ⟨rest, onward⟩ := List.exists_mem_of_ne_nil _ (ih e inside)
    rw [leafPaths]
    exact List.ne_nil_of_mem (mem_childPaths_iff.mpr ⟨e.1, e.2, rest, inside, onward, rfl⟩)

theorem mem_childPaths (h : Bearing m) : q ∈ childPaths m ↔ (branch m).at? q = some .leaf :=
  mem_childPaths_of h.sorted fun e inside => mem_leafPaths (h.each e inside)

theorem childPaths_sorted (h : Bearing m) : (childPaths m).Pairwise (· < ·) :=
  childPaths_sorted_of h.sorted fun e inside => leafPaths_sorted (h.each e inside)

theorem childPaths_ne_nil (h : Bearing m) (some : m ≠ []) : childPaths m ≠ [] := by
  have paths := leafPaths_ne_nil (h.bears some)
  rwa [leafPaths] at paths

end DirtyTree

/-- Segments make up a path if there is one, and none is empty. -/
theorem FieldPath.ofSegments_eq_some {segments : List String} {p : FieldPath} :
    (FieldPath.ofSegments segments).toOption = some p ↔
      segments ≠ [] ∧ "" ∉ segments ∧ p.segments = segments := by
  have filled : segments.findIdx? String.isEmpty = none ↔ "" ∉ segments := by
    rw [List.findIdx?_eq_none_iff]
    constructor
    · intro filled empty
      cases filled "" empty
    · intro filled s inside
      apply Bool.eq_false_iff.mpr
      intro empty
      exact filled (String.isEmpty_iff.mp empty ▸ inside)
  unfold ofSegments
  split
  · rename_i empty
    simp [List.isEmpty_iff.mp empty, Except.toOption]
  · rename_i given
    have given : segments ≠ [] := by simpa using given
    cases found : segments.findIdx? String.isEmpty with
    | some place =>
      have empty : ¬ "" ∉ segments := by simp [← filled, found]
      simp [empty, Except.toOption]
    | none =>
      obtain ⟨own⟩ := p
      simp [given, filled.mp found, Except.toOption, eq_comm]

namespace DirtyFields

open DirtyTree

variable {d d' : DirtyFields} {p : FieldPath}

/-- A leaf of the marks is at the end of the path. -/
def HasLeaf (d : DirtyFields) (q : List String) : Prop := (branch d.children).at? q = some .leaf

theorem diff_bearing (current baseline : Json) : Bearing (diff current baseline).children := by
  unfold DirtyFields.diff
  split
  · rename_i there
    exact (diff?_bears _ _ _ there).children
  · split
    · apply Bearing.empty.foldl_insert
      intro e inside
      obtain ⟨_, -, rfl⟩ := List.mem_map.mp inside
      exact .leaf
    · exact .empty
  · exact .empty

/-- Without a leaf there are no marks. -/
theorem isEmpty_iff (h : Bearing d.children) : d.isEmpty = false ↔ ∃ q, d.HasLeaf q := by
  constructor
  · intro some
    have some : d.children ≠ [] := by simpa [isEmpty] using some
    obtain ⟨q, way⟩ := List.exists_mem_of_ne_nil _ (childPaths_ne_nil h some)
    exact ⟨q, (mem_childPaths h).mp way⟩
  · rintro ⟨q, leaf⟩
    apply Bool.eq_false_iff.mpr
    intro none
    rw [HasLeaf, List.isEmpty_iff.mp none] at leaf
    cases q <;> cases leaf

/-- A path is listed if it leads to a leaf and has no empty segment. -/
theorem mem_paths (h : Bearing d.children) :
    p ∈ d.paths ↔ d.HasLeaf p.segments ∧ "" ∉ p.segments := by
  rw [paths, List.mem_filterMap]
  constructor
  · rintro ⟨segments, way, found⟩
    obtain ⟨-, filled, rfl⟩ := FieldPath.ofSegments_eq_some.mp found
    exact ⟨(mem_childPaths h).mp way, filled⟩
  · rintro ⟨leaf, filled⟩
    have named : p.segments ≠ [] := by
      intro none
      rw [HasLeaf, none] at leaf
      cases leaf
    refine ⟨p.segments, (mem_childPaths h).mpr leaf, ?_⟩
    exact FieldPath.ofSegments_eq_some.mpr ⟨named, filled, rfl⟩

/-- Paths are listed in order, and so each of them once. -/
theorem paths_sorted (h : Bearing d.children) : d.paths.Pairwise (· < ·) := by
  apply (childPaths_sorted h).filterMap
  intro a b before p first q next
  have p_segments := (FieldPath.ofSegments_eq_some.mp first).2.2
  have q_segments := (FieldPath.ofSegments_eq_some.mp next).2.2
  show p.segments < q.segments
  rw [p_segments, q_segments]
  exact before

end DirtyFields

end LiveForm
