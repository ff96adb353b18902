import LiveForm.Proofs.Marks
import LiveForm.Proofs.Proper
import LiveForm.Proofs.Spelling

/-!
# Two values side by side

* `DirtyTree.diff?_places`: containers of one kind are compared place by place, and nothing else is
  compared;
* `DirtyTree.between?_leaf`: a leaf is where the values differ, below containers of the same kinds;
* `DirtyTree.reached_between?`: a path on which the values differ is touched;
* `diff_exact`: so the marks of a form are neither too many nor too few.
-/

set_option autoImplicit false

namespace LiveForm

open Json

/-- A segment that goes through a list writes the index in decimal digits. -/
def Json.Kind.Plain (k : Kind) (s : String) : Prop :=
  k = .list → ∀ i, FieldPath.index? s = some i → s = toString i

namespace DirtyTree

variable {x y : Json} {a b : Option Json} {k : Kind} {s : String} {t : DirtyTree}
  {m : List (String × DirtyTree)} {q : List String}

theorem between?_eq_none (proper : ProperIn a) (proper' : ProperIn b) :
    between? a b = none ↔ (a == b) = true := by
  cases a with
  | none => cases b <;> simp [between?]
  | some x =>
    cases b with
    | none => simp [between?, found?]
    | some y => exact diff?_eq_none (proper x rfl) (proper' y rfl)

/-! ## Places of a container -/

theorem alike_or_unlike (x y : Json) :
    (∃ k, x.kind? = some k ∧ y.kind? = some k) ∨ x.kind? ≠ y.kind? ∨ x.kind? = none := by
  cases kind : x.kind? with
  | none => exact .inr (.inr rfl)
  | some k =>
    by_cases alike : y.kind? = some k
    · exact .inl ⟨k, rfl, alike⟩
    · exact .inr (.inl (Ne.symm alike))

/-- What a comparison of two containers of one kind finds, and where: in each place the difference of
what is there, and nothing else. -/
structure Places (k : Kind) (x y : Json) (m : List (String × DirtyTree)) : Prop where
  made : diff? x y = branch? m
  each : ∀ s, k.Plain s → Assoc.find? s m = between? (x.child? s) (y.child? s)
  only : ∀ s t, Assoc.find? s m = some t → between? (x.child? s) (y.child? s) = some t

theorem lt_of_between? {i : Nat} {xs ys : List Json} (found : between? xs[i]? ys[i]? = some t) :
    i < xs.length ∨ i < ys.length := by
  by_contra outside
  rw [not_or, Nat.not_lt, Nat.not_lt] at outside
  rw [List.getElem?_eq_none outside.1, List.getElem?_eq_none outside.2] at found
  cases found

/-- The segments that are found are the digits of indices. -/
theorem index?_of_find?_diffItems {xs ys : List Json} (short : xs.length ≤ FieldPath.lastIndex)
    (short' : ys.length ≤ FieldPath.lastIndex)
    (found : Assoc.find? s (diffItems 0 xs ys) = some t) :
    ∃ i, FieldPath.index? s = some i ∧ between? xs[i]? ys[i]? = some t := by
  obtain ⟨i, -, rfl⟩ := place_of_find?_diffItems found
  have item := find?_diffItems 0 i xs ys
  rw [Nat.zero_add, found] at item
  refine ⟨i, FieldPath.index?_toString ?_, item.symm⟩
  have bound : FieldPath.lastIndex < Text.wordBound := by decide
  rcases lt_of_between? item.symm with inside | inside <;> omega

theorem diff?_places (proper : x.Proper) (proper' : y.Proper) (kind : x.kind? = some k)
    (kind' : y.kind? = some k) : ∃ m, Places k x y m := by
  cases k with
  | object =>
    obtain ⟨ms, rfl⟩ := kind?_eq_object kind
    obtain ⟨ns, rfl⟩ := kind?_eq_object kind'
    cases proper with
    | obj sorted _ =>
      refine ⟨_, by rw [diff?], ?_, ?_⟩
      · intro s _
        exact find?_members sorted ns
      · intro s t found
        exact (find?_members sorted ns).symm.trans found
  | list =>
    obtain ⟨xs, rfl⟩ := kind?_eq_list kind
    obtain ⟨ys, rfl⟩ := kind?_eq_list kind'
    cases proper with
    | arr short _ =>
      cases proper' with
      | arr short' _ =>
        have only (s : String) (t : DirtyTree)
            (found : Assoc.find? s (diffItems 0 xs ys) = some t) :
            between? ((Json.arr xs).child? s) ((Json.arr ys).child? s) = some t := by
          obtain ⟨i, index, item⟩ := index?_of_find?_diffItems short short' found
          rwa [child?, child?, index]
        refine ⟨_, by rw [diff?], ?_, only⟩
        intro s plain
        cases index : FieldPath.index? s with
        | some i =>
          rw [child?, child?, index, Option.bind_some, Option.bind_some, plain rfl i index]
          simpa using find?_diffItems 0 i xs ys
        | none =>
          -- neither list has anything there, and what is found anywhere is an index
          cases found : Assoc.find? s (diffItems 0 xs ys) with
          | some t => rw [← only s t found]
          | none => rw [child?, child?, index]; rfl

/-! ## Paths -/

/-- Only containers of one kind are compared by their places. -/
theorem between?_branch (proper : ProperIn a) (proper' : ProperIn b)
    (found : between? a b = some (.branch m)) :
    ∃ x y k, a = some x ∧ b = some y ∧ x.kind? = some k ∧ y.kind? = some k ∧ Places k x y m := by
  cases a with
  | none => cases b <;> cases found
  | some x =>
    cases b with
    | none => cases found
    | some y =>
      have found : diff? x y = some (.branch m) := found
      rcases alike_or_unlike x y with ⟨k, kind, kind'⟩ | unlike
      · obtain ⟨m', places⟩ := diff?_places (proper x rfl) (proper' y rfl) kind kind'
        rw [places.made, branch?, Option.ite_none_left_eq_some] at found
        obtain ⟨-, same⟩ := found
        cases same
        exact ⟨x, y, k, rfl, rfl, kind, kind', places⟩
      · rw [diff?_unlike unlike, Option.ite_none_left_eq_some] at found
        cases found.2

/-- A leaf is where the values differ, and up to there both have containers of the same kinds. -/
theorem between?_leaf (proper : ProperIn a) (proper' : ProperIn b) (found : between? a b = some t)
    (leaf : t.at? q = some .leaf) :
    (reach? a q == reach? b q) = false ∧ ∀ c s rest, q = c ++ s :: rest →
      ∃ k, (reach? a c).bind kind? = some k ∧ (reach? b c).bind kind? = some k := by
  induction q generalizing a b t with
  | nil =>
    rw [reach?_nil, reach?_nil]
    constructor
    · apply Bool.eq_false_iff.mpr
      intro same
      rw [(between?_eq_none proper proper').mpr same] at found
      cases found
    · intro c s rest split
      simp at split
  | cons s q ih =>
    cases t with
    | leaf => cases leaf
    | branch children =>
      obtain ⟨t, below, leaf⟩ := Option.bind_eq_some_iff.mp leaf
      obtain ⟨x, y, k, rfl, rfl, kind, kind', places⟩ := between?_branch proper proper' found
      obtain ⟨differs, kinds⟩ :=
        ih (proper.child? s) (proper'.child? s) (places.only s t below) leaf
      rw [reach?_child, reach?_child]
      refine ⟨differs, ?_⟩
      intro c s' rest split
      cases c with
      | nil => exact ⟨k, kind, kind'⟩
      | cons first c =>
        obtain ⟨rfl, split⟩ := List.cons_eq_cons.mp split
        rw [reach?_child, reach?_child]
        exact kinds c s' rest ‹_›

/-- Where values differ, the path is touched. -/
theorem reached_between? (proper : ProperIn a) (proper' : ProperIn b)
    (plain : ∀ c s rest, q = c ++ s :: rest → ∀ k, (reach? a c).bind kind? = some k →
      (reach? b c).bind kind? = some k → k.Plain s)
    (differs : (reach? a q == reach? b q) = false) : reached (between? a b) q = true := by
  induction q generalizing a b with
  | nil =>
    rw [reach?_nil, reach?_nil] at differs
    cases found : between? a b with
    | none =>
      rw [(between?_eq_none proper proper').mp found] at differs
      cases differs
    | some t => cases t <;> rfl
  | cons s q ih =>
    cases a with
    | none =>
      cases b with
      | none => cases differs
      | some y => rfl
    | some x =>
      cases b with
      | none => rfl
      | some y =>
        show reached (diff? x y) (s :: q) = true
        rcases alike_or_unlike x y with ⟨k, kind, kind'⟩ | unlike
        · obtain ⟨m, places⟩ := diff?_places (proper x rfl) (proper' y rfl) kind kind'
          rw [places.made, reached_branch?, places.each s (plain [] s q rfl k kind kind')]
          rw [reach?_child, reach?_child] at differs
          apply ih (proper.child? s) (proper'.child? s) _ differs
          intro c s' rest split k below below'
          rw [← reach?_child] at below below'
          exact plain (s :: c) s' rest (congrArg (s :: ·) split) k below below'
        · rw [diff?_unlike unlike]
          split
          · -- two scalars that are the same lead to nothing, so that the path cannot tell them apart
            rename_i same
            have alike : x.kind? = y.kind? := by
              by_contra other
              rw [same_unlike other] at same
              cases same
            have scalar : x.kind? = none := unlike.resolve_left (not_not_intro alike)
            rw [reach?_child, reach?_child, Option.bind_some, Option.bind_some,
              child?_of_kind? scalar, child?_of_kind? (alike ▸ scalar)] at differs
            cases differs
          · rfl

end DirtyTree

open DirtyTree

namespace DirtyFields

variable {x y : Json} {p : FieldPath}

theorem differs_of_mem_paths (document : x.Document) (document' : y.Document)
    (listed : p ∈ (DirtyFields.diff x y).paths) : (x.get? p == y.get? p) = false ∧
      ∀ c s rest, p.segments = c ++ s :: rest → ∃ k, x.kindAt? c = some k ∧ y.kindAt? c = some k := by
  obtain ⟨leaf, -⟩ := (mem_paths (diff_bearing x y)).mp listed
  have made := branch?_diff document.object document'.object
  have marks : (DirtyFields.diff x y).isEmpty = false := (isEmpty_iff (diff_bearing x y)).mpr ⟨_, leaf⟩
  rw [branch?, ← isEmpty, marks, if_neg Bool.false_ne_true] at made
  exact between?_leaf document.proper.there document'.proper.there made.symm leaf

theorem touches_of_differs (document : x.Document) (document' : y.Document)
    (canonical : x.Canonical p.segments ∨ y.Canonical p.segments)
    (differs : (x.get? p == y.get? p) = false) : (DirtyFields.diff x y).touches p = true := by
  have reaches : reached (between? (some x) (some y)) p.segments = true := by
    apply reached_between? document.proper.there document'.proper.there _ differs
    rintro c s rest split k kind kind' rfl
    exact canonical.elim (fun h => h c s rest split kind) fun h => h c s rest split kind'
  rw [between?, found?, ← branch?_diff document.object document'.object] at reaches
  rw [touches]
  cases segments : p.segments with
  | nil => rfl
  | cons s rest => rwa [touches_cons, ← reached_branch?, ← segments]

end DirtyFields

/-- A store whose marks have been computed is dirty iff its values differ from the baseline. -/
theorem Store.isDirty_diff {store : Store} (proper : store.Proper)
    (computed : store.dirty = .diff store.values store.baseline) :
    store.isDirty = true ↔ (store.values == store.baseline) = false := by
  rw [isDirty, computed, Bool.not_eq_true', Bool.eq_false_iff, Bool.eq_false_iff, Ne,
    DirtyFields.isEmpty_diff proper.values proper.baseline]
  rfl

/-- The marks that tell two objects apart are exact:

* there are none iff the objects are the same;
* a listed path is one on which they differ, and up to there it goes through containers of the same
  kinds;
* any other path on which they differ, with its indices in decimal digits, is above or below one
  that is marked;
* and so a reset or a commit leaves a store dirty iff its values differ from the baseline. -/
theorem diff_exact {x y : Json} (document : x.Document) (document' : y.Document) :
    ((DirtyFields.diff x y).isEmpty = true ↔ (x == y) = true) ∧
      (∀ p ∈ (DirtyFields.diff x y).paths, (x.get? p == y.get? p) = false ∧
        ∀ c s rest, p.segments = c ++ s :: rest →
          ∃ k, x.kindAt? c = some k ∧ y.kindAt? c = some k) ∧
      (∀ p : FieldPath, x.Canonical p.segments ∨ y.Canonical p.segments →
        (x.get? p == y.get? p) = false → (DirtyFields.diff x y).touches p = true) ∧
      (∀ (v : Json) store, v.Proper → store = Store.reset v →
        (store.isDirty = true ↔ (store.values == store.baseline) = false)) ∧
      ∀ base edits store, base.Proper → (∀ e ∈ edits, e.2.Proper) →
        Store.commit? base edits = some store →
          (store.isDirty = true ↔ (store.values == store.baseline) = false) := by
  refine ⟨DirtyFields.isEmpty_diff document document', ?_, ?_, ?_, ?_⟩
  · intro p
    exact DirtyFields.differs_of_mem_paths document document'
  · intro p
    exact DirtyFields.touches_of_differs document document'
  · rintro v store proper rfl
    exact Store.isDirty_diff (Store.reset_proper proper) rfl
  · intro base edits store proper each committed
    apply Store.isDirty_diff (Store.commit?_proper proper each committed)
    obtain ⟨merged, -, rfl⟩ := Option.map_eq_some_iff.mp committed
    rfl

/-- Of a list one item has changed and another is gone. Both places are listed, and a store that puts
the one list over the other is dirty. -/
theorem diff_exact_rows :
    ∃ x y store, x = Json.obj [("rows", .arr [.int 1, .int 2]), ("total", .int 3)] ∧
      y = Json.obj [("rows", .arr [.int 1, .int 5, .int 6]), ("total", .int 3)] ∧
      (DirtyFields.diff x y).paths = [⟨["rows", "1"]⟩, ⟨["rows", "2"]⟩] ∧
      (x.get? ⟨["rows", "1"]⟩ == y.get? ⟨["rows", "1"]⟩) = false ∧
      (∃ k, x.kindAt? ["rows"] = some k ∧ y.kindAt? ["rows"] = some k) ∧
      (DirtyFields.diff x y).touches ⟨["rows", "2"]⟩ = true ∧
      Store.commit? y [(⟨["rows"]⟩, .arr [.int 1, .int 2])] = some store ∧
      store.isDirty = true := by
  have short : (Json.arr [.int 1, .int 2]).Proper := by
    apply Proper.arr (by decide)
    exact List.forall_mem_cons.mpr ⟨.int 1, List.forall_mem_singleton.mpr (.int 2)⟩
  have long : (Json.arr [.int 1, .int 5, .int 6]).Proper := by
    apply Proper.arr (by decide)
    exact List.forall_mem_cons.mpr ⟨.int 1, List.forall_mem_cons.mpr
      ⟨.int 5, List.forall_mem_singleton.mpr (.int 6)⟩⟩
  have document {rows : Json} (proper : rows.Proper) :
      (Json.obj [("rows", rows), ("total", .int 3)]).Document := by
    refine ⟨.obj (List.pairwise_pair.mpr (show "rows" < "total" by decide)) ?_, rfl⟩
    exact List.forall_mem_cons.mpr ⟨proper, List.forall_mem_singleton.mpr (.int 3)⟩
  obtain ⟨-, listed, touched, -, kept⟩ := diff_exact (document short) (document long)
  have paths : (DirtyFields.diff (.obj [("rows", .arr [.int 1, .int 2]), ("total", .int 3)])
      (.obj [("rows", .arr [.int 1, .int 5, .int 6]), ("total", .int 3)])).paths =
        [⟨["rows", "1"]⟩, ⟨["rows", "2"]⟩] := by decide +kernel
  obtain ⟨differs, kinds⟩ := listed ⟨["rows", "1"]⟩ (by rw [paths]; exact List.mem_cons_self)
  refine ⟨_, _, _, rfl, rfl, paths, differs, kinds ["rows"] "1" [] rfl, ?_, rfl, ?_⟩
  · exact touched ⟨["rows", "2"]⟩ (.inl (by decide +kernel)) (by decide +kernel)
  · apply (kept _ [(⟨["rows"]⟩, .arr [.int 1, .int 2])] _ (document long).proper
      (List.forall_mem_singleton.mpr short) rfl).mpr
    decide +kernel

end LiveForm
