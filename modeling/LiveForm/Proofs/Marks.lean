import LiveForm.Proofs.Leaves

/-!
# What marks cover

A path is covered if it or a path above it is marked.

* `DirtyTree.isMarked_mark`: a new mark covers what is at and below its path, and what was covered
  before stays so;
* `DirtyTree.Ordered`: every level is in the order of its segments, and marks keep it so;
* `DirtyFields.isMarked_diff`: the difference of two values covers each scalar of the first that the
  second does not have in the same place;
* `DirtyFields.isEmpty_diff`: there is none iff the values are the same.
-/

set_option autoImplicit false

namespace LiveForm

open Json

namespace DirtyTree

variable {s : String} {m : List (String × DirtyTree)} {p q rest : List String}

/-- Holds if the marks from a place on cover what a path leads to. -/
def covers : Option DirtyTree → List String → Bool
  | none, _ => false
  | some .leaf, _ => true
  | some (.branch children), q => isMarked children q

theorem isMarked_cons : isMarked m (s :: rest) = covers (Assoc.find? s m) rest := by
  rw [isMarked]
  cases Assoc.find? s m with
  | none => rfl
  | some t => cases t <;> rfl

theorem covers_branch? : covers (branch? m) (s :: rest) = covers (Assoc.find? s m) rest := by
  cases m with
  | nil => rfl
  | cons => exact isMarked_cons

theorem isMarked_nil : isMarked [] q = false := by
  cases q <;> rfl

theorem find?_mark_ne {s' : String} (other : s ≠ s') :
    Assoc.find? s' (mark m (s :: p)) = Assoc.find? s' m := by
  cases p with
  | nil => exact Assoc.find?_insert_ne other _ _
  | cons next p =>
    rw [mark]
    split
    · rfl
    · exact Assoc.find?_insert_ne other _ _
    · exact Assoc.find?_insert_ne other _ _

/-- A mark covers what is at and below its path, beside what has been covered before. -/
theorem isMarked_mark (named : p ≠ []) (m : List (String × DirtyTree)) (q : List String) :
    isMarked (mark m p) q = (isMarked m q || p.isPrefixOf q) := by
  induction p generalizing m q with
  | nil => exact absurd rfl named
  | cons s p ih =>
    cases q with
    | nil => simp [isMarked]
    | cons s' q =>
      by_cases same : s = s'
      · subst same
        rw [isMarked_cons, isMarked_cons, List.isPrefixOf_cons_cons, beq_self_eq_true, Bool.true_and]
        cases p with
        | nil => simp [mark, covers]
        | cons next p =>
          have below := ih (List.cons_ne_nil next p)
          cases there : Assoc.find? s m with
          | none => simp [mark, there, covers, below, isMarked_nil]
          | some t => cases t <;> simp [mark, there, covers, below]
      · rw [isMarked_cons, isMarked_cons, find?_mark_ne same, List.isPrefixOf_cons_cons]
        simp [same]

/-! ## Levels in order -/

/-- Every level has its segments in order. -/
inductive Ordered : DirtyTree → Prop where
  | leaf : Ordered .leaf
  | branch {children : List (String × DirtyTree)} : Assoc.Sorted children →
      (∀ e ∈ children, Ordered e.2) → Ordered (.branch children)

theorem Ordered.children {children : List (String × DirtyTree)} (h : Ordered (.branch children)) :
    Assoc.Sorted children ∧ ∀ e ∈ children, Ordered e.2 := by
  cases h with
  | branch sorted each => exact ⟨sorted, each⟩

theorem Ordered.insert {t : DirtyTree} (h : Ordered (.branch m)) (s : String) (below : Ordered t) :
    Ordered (.branch (Assoc.insert s t m)) := by
  obtain ⟨sorted, each⟩ := h.children
  refine .branch sorted.insert fun e inside => ?_
  rcases Assoc.mem_insert inside with rfl | old
  · exact below
  · exact each e old

theorem Ordered.empty : Ordered (.branch []) := .branch .nil (by simp)

theorem Ordered.mark (h : Ordered (.branch m)) (p : List String) :
    Ordered (.branch (mark m p)) := by
  induction p generalizing m with
  | nil => exact h
  | cons s p ih =>
    cases p with
    | nil => exact h.insert s .leaf
    | cons next p =>
      rw [DirtyTree.mark]
      split
      · exact h
      · rename_i below there
        exact h.insert s (ih (h.children.2 _ (Assoc.mem_of_find? there)))
      · exact h.insert s (ih .empty)

theorem Bears.ordered {t : DirtyTree} (h : Bears t) : Ordered t := by
  induction h with
  | leaf => exact .leaf
  | branch _ sorted _ ih => exact .branch sorted ih

theorem Bearing.ordered (h : Bearing m) : Ordered (.branch m) :=
  .branch h.sorted fun e inside => (h.each e inside).ordered

/-! ## Differences -/

/-- The difference of `x` from what is in the same place covers each scalar of `x` that the other
side does not have there. -/
theorem covers_found? {x v : Json} {o : Option Json} {q : List String} (proper : x.Proper)
    (canonical : x.Canonical q) (live : x.follow? q = some v) (scalar : v.kind? = none)
    (differs : ¬ ∃ w, reach? o q = some w ∧ v.same w = true) : covers (found? x o) q = true := by
  induction q generalizing x o with
  | nil =>
    obtain rfl : x = v := Option.some.inj live
    cases o with
    | none => rfl
    | some y =>
      have apart : x.same y ≠ true := fun same => differs ⟨y, rfl, same⟩
      rw [found?, diff?_unlike (.inr scalar), if_neg apart]
      rfl
  | cons s rest ih =>
    obtain ⟨c, child, live⟩ := Option.bind_eq_some_iff.mp live
    cases o with
    | none => rfl
    | some y =>
      by_cases alike : x.kind? = y.kind?
      · have decimal : ∀ i, x.kind? = some .list → FieldPath.index? s = some i → s = toString i :=
          fun i list index => canonical [] s rest rfl list i index
        obtain ⟨m, compared, place⟩ := diff?_child proper alike child decimal
        rw [found?, compared, covers_branch?, place]
        exact ih (proper.child? child) (canonical.below child) live differs
      · rw [found?, diff?_unlike (.inl alike), same_unlike alike]
        rfl

end DirtyTree

namespace DirtyFields

open DirtyTree

variable {x y v : Json} {p : FieldPath}

/-- Of two objects the marks cover each scalar of the first that the second does not have there. -/
theorem isMarked_diff (proper : x.Proper) (object : x.kind? = some .object)
    (object' : y.kind? = some .object) (canonical : x.Canonical p.segments)
    (live : x.get? p = some v) (scalar : v.kind? = none)
    (differs : ¬ ∃ w, y.get? p = some w ∧ v.same w = true) :
    (DirtyFields.diff x y).isMarked p = true := by
  have covered := covers_found? (o := some y) proper canonical live scalar differs
  obtain ⟨segments⟩ := p
  cases segments with
  | nil =>
    cases live
    cases object.symm.trans scalar
  | cons s rest =>
    rw [found?, ← branch?_diff object object', covers_branch?, ← isMarked_cons] at covered
    exact covered

/-- No mark tells two objects apart iff they are the same. -/
theorem isEmpty_diff (document : x.Document) (document' : y.Document) :
    (DirtyFields.diff x y).isEmpty = true ↔ x.same y = true := by
  rw [isEmpty, List.isEmpty_iff, ← branch?_eq_none, branch?_diff document.object document'.object]
  exact diff?_eq_none document.proper document'.proper

end DirtyFields

end LiveForm
