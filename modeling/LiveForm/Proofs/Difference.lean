import LiveForm.Proofs.Json.Replay

/-!
# What the difference of two values touches

* `DirtyTree.diff?_eq_none`: there is no difference between values that are the same, and only
  between them;
* `DirtyTree.reached_found?`: the difference of two values touches a path iff they differ there;
* `DirtyFields.touches_diff`: so do the marks of a form.

Lists are compared place by place, and a place is marked by its index in decimal digits. A path that
writes an index in another way is not touched by that mark.
-/

set_option autoImplicit false

namespace LiveForm

open Json

theorem toString_injective {i j : Nat} (h : toString i = toString j) : i = j := by
  have digits : Nat.toDigits 10 i = Nat.toDigits 10 j := by
    rw [← Nat.toList_repr, ← Nat.toList_repr]
    exact congrArg String.toList h
  calc
    i = Nat.ofDigitChars 10 (Nat.toDigits 10 i) 0 := Nat.ofDigitChars_ten_toDigits.symm
    _ = Nat.ofDigitChars 10 (Nat.toDigits 10 j) 0 := by rw [digits]
    _ = j := Nat.ofDigitChars_ten_toDigits

namespace Json

/-- Where a path goes through a list of `t`, it writes the index in decimal digits. -/
def Canonical (t : Json) (q : List String) : Prop :=
  ∀ c s rest, q = c ++ s :: rest → t.kindAt? c = some .list → ∀ i, FieldPath.index? s = some i →
    s = toString i

instance (t : Json) (q : List String) : Decidable (t.Canonical q) :=
  have (s : String) : Decidable (∀ i, FieldPath.index? s = some i → s = toString i) :=
    inferInstanceAs (Decidable (∀ i ∈ FieldPath.index? s, s = toString i))
  decidable_of_iff _ forall_cut_iff.symm

theorem Canonical.below {t c : Json} {s : String} {rest : List String}
    (h : t.Canonical (s :: rest)) (child : t.child? s = some c) : c.Canonical rest := by
  intro above s' rest' split list
  refine h (s :: above) s' rest' (congrArg (s :: ·) split) ?_
  exact (kindAt?_cons child above).trans list

end Json

namespace DirtyTree

variable {k s : String} {d : Option DirtyTree} {m : List (String × DirtyTree)} {rest : List String}

/-- The difference of `x` from what the other side has in the same place. -/
def found? (x : Json) : Option Json → Option DirtyTree
  | some y => diff? x y
  | none => some .leaf

/-- The difference of what two values have in one place, if they have anything. -/
def between? : Option Json → Option Json → Option DirtyTree
  | some x, o => found? x o
  | none, some _ => some .leaf
  | none, none => none

/-- Holds if the marks from a place on touch what a path leads to. -/
def reached : Option DirtyTree → List String → Bool
  | none, _ => false
  | some .leaf, _ => true
  | some (.branch children), q => touches children q

theorem touches_cons : touches m (s :: rest) = reached (Assoc.find? s m) rest := by
  rw [touches]
  cases Assoc.find? s m with
  | none => rfl
  | some t => cases t <;> rfl

theorem branch?_eq_none : branch? m = none ↔ m = [] := by
  cases m <;> simp [branch?]

theorem reached_branch? : reached (branch? m) (s :: rest) = reached (Assoc.find? s m) rest := by
  cases m with
  | nil => rfl
  | cons => exact touches_cons

theorem addDifference_eq_nil : addDifference k d m = [] ↔ d = none ∧ m = [] := by
  cases d with
  | none => simp [addDifference]
  | some t => simp [addDifference, Assoc.insert_ne_nil]

theorem find?_addDifference_self (fresh : Assoc.find? k m = none) :
    Assoc.find? k (addDifference k d m) = d := by
  cases d with
  | none => exact fresh
  | some t => exact Assoc.find?_insert_self k t m

theorem find?_addDifference_ne (other : k ≠ s) :
    Assoc.find? s (addDifference k d m) = Assoc.find? s m := by
  cases d with
  | none => rfl
  | some t => exact Assoc.find?_insert_ne other t m

/-! ## Objects -/

theorem diffMembers_cons (k : String) (v : Json) (ms ns : List (String × Json)) :
    diffMembers ((k, v) :: ms) ns =
      addDifference k (found? v (Assoc.find? k ns)) (diffMembers ms ns) := by
  rw [diffMembers]
  cases Assoc.find? k ns <;> rfl

theorem find?_diffMembers {ms : List (String × Json)} (sorted : Assoc.Sorted ms)
    (ns : List (String × Json)) :
    Assoc.find? k (diffMembers ms ns) =
      (Assoc.find? k ms).bind fun v => found? v (Assoc.find? k ns) := by
  induction ms with
  | nil => rw [diffMembers]; rfl
  | cons e ms ih =>
    obtain ⟨l, v⟩ := e
    obtain ⟨first, others⟩ := List.pairwise_cons.mp sorted
    rw [diffMembers_cons]
    by_cases same : l = k
    · subst same
      have fresh : Assoc.find? l (diffMembers ms ns) = none := by
        rw [ih others, Assoc.find?_in_front first]
        rfl
      rw [find?_addDifference_self fresh, Assoc.find?, if_pos rfl]
      rfl
    · rw [find?_addDifference_ne same, ih others, Assoc.find?, if_neg same]

theorem find?_addMissing {ms : List (String × Json)} (known : Assoc.contains k ms = true)
    (ns : List (String × Json)) : Assoc.find? k (addMissing ms ns m) = Assoc.find? k m := by
  induction ns with
  | nil => rfl
  | cons e ns ih =>
    obtain ⟨l, w⟩ := e
    rw [addMissing]
    split
    · exact ih
    · rename_i missing
      have other : l ≠ k := fun same => missing (same ▸ known)
      rw [Assoc.find?_insert_ne other, ih]

theorem find?_addMissing_fresh {ms : List (String × Json)} (fresh : Assoc.contains k ms = false)
    (ns : List (String × Json)) :
    Assoc.find? k (addMissing ms ns m) =
      if Assoc.contains k ns then some .leaf else Assoc.find? k m := by
  induction ns with
  | nil => rfl
  | cons e ns ih =>
    obtain ⟨l, w⟩ := e
    rw [addMissing]
    by_cases same : l = k
    · subst same
      rw [fresh, if_neg Bool.false_ne_true, Assoc.find?_insert_self]
      simp [Assoc.contains, Assoc.find?]
    · have passed : Assoc.contains k ((l, w) :: ns) = Assoc.contains k ns := by
        simp [Assoc.contains, Assoc.find?, same]
      rw [passed]
      split
      · exact ih
      · rw [Assoc.find?_insert_ne same, ih]

/-- Objects are compared key by key. -/
theorem find?_members {ms : List (String × Json)} (sorted : Assoc.Sorted ms)
    (ns : List (String × Json)) :
    Assoc.find? k (addMissing ms ns (diffMembers ms ns)) =
      between? (Assoc.find? k ms) (Assoc.find? k ns) := by
  cases found : Assoc.find? k ms with
  | none =>
    have fresh : Assoc.contains k ms = false := by simp [Assoc.contains, found]
    rw [find?_addMissing_fresh fresh, find?_diffMembers sorted, found, Assoc.contains]
    cases Assoc.find? k ns <;> rfl
  | some v =>
    have known : Assoc.contains k ms = true := by simp [Assoc.contains, found]
    rw [find?_addMissing known, find?_diffMembers sorted, found]
    rfl

theorem diffMembers_eq_nil {ms ns : List (String × Json)} :
    diffMembers ms ns = [] ↔
      ∀ e ∈ ms, ∃ old, Assoc.find? e.1 ns = some old ∧ diff? e.2 old = none := by
  induction ms with
  | nil => simp [diffMembers]
  | cons e ms ih =>
    obtain ⟨k, v⟩ := e
    rw [diffMembers_cons, addDifference_eq_nil, ih, List.forall_mem_cons]
    cases Assoc.find? k ns <;> simp [found?]

theorem addMissing_eq_nil {ms ns : List (String × Json)} :
    addMissing ms ns m = [] ↔ m = [] ∧ ∀ e ∈ ns, Assoc.contains e.1 ms = true := by
  induction ns with
  | nil => simp [addMissing]
  | cons e ns ih =>
    obtain ⟨l, w⟩ := e
    rw [addMissing, List.forall_mem_cons]
    split
    · rename_i known
      simp [ih, known]
    · rename_i missing
      simp [missing, Assoc.insert_ne_nil]

/-- Sorted members are the same iff both sides know the same keys, with the same values. -/
theorem sameMembers_iff {ms ns : List (String × Json)} (sorted : Assoc.Sorted ms)
    (sorted' : Assoc.Sorted ns) :
    sameMembers ms ns = true ↔
      (∀ e ∈ ms, ∃ old, Assoc.find? e.1 ns = some old ∧ e.2.same old = true) ∧
        ∀ e ∈ ns, Assoc.contains e.1 ms = true := by
  induction ms generalizing ns with
  | nil =>
    cases ns with
    | nil => simp [sameMembers]
    | cons e' ns =>
      refine ⟨fun same => by simp [sameMembers] at same, ?_⟩
      rintro ⟨-, known⟩
      cases known e' List.mem_cons_self
  | cons e ms ih =>
    obtain ⟨k, v⟩ := e
    obtain ⟨first, others⟩ := List.pairwise_cons.mp sorted
    cases ns with
    | nil =>
      refine ⟨fun same => by simp [sameMembers] at same, ?_⟩
      rintro ⟨known, -⟩
      obtain ⟨old, found, _⟩ := known (k, v) List.mem_cons_self
      cases found
    | cons e' ns =>
      obtain ⟨l, w⟩ := e'
      obtain ⟨first', others'⟩ := List.pairwise_cons.mp sorted'
      have apart : ∀ {e : String × Json}, k < e.1 → k ≠ e.1 := fun lt same =>
        String.lt_irrefl k (same ▸ lt)
      have keys : (∃ old, Assoc.find? k ((l, w) :: ns) = some old) →
          Assoc.contains l ((k, v) :: ms) = true → k = l := by
        rintro ⟨old, found⟩ known
        obtain ⟨old', found'⟩ := Option.isSome_iff_exists.mp known
        by_cases same : k = l
        · exact same
        · rw [Assoc.find?, if_neg (Ne.symm same)] at found
          rw [Assoc.find?, if_neg same] at found'
          have before : k < l := first _ (Assoc.mem_of_find? found')
          have behind : l < k := first' _ (Assoc.mem_of_find? found)
          exact absurd (String.lt_trans before behind) (String.lt_irrefl k)
      rw [sameMembers, Bool.and_eq_true, Bool.and_eq_true, beq_iff_eq, ih others others',
        List.forall_mem_cons, List.forall_mem_cons]
      constructor
      · rintro ⟨⟨rfl, values⟩, known, known'⟩
        refine ⟨⟨⟨w, by simp [Assoc.find?], values⟩, ?_⟩, by simp [Assoc.contains, Assoc.find?],
          ?_⟩
        · intro e inside
          rw [Assoc.find?, if_neg (apart (first e inside))]
          exact known e inside
        · intro e inside
          rw [Assoc.contains, Assoc.find?, if_neg (apart (first' e inside))]
          exact known' e inside
      · rintro ⟨⟨⟨old, found, values⟩, known⟩, key, known'⟩
        obtain rfl := keys ⟨old, found⟩ key
        rw [Assoc.find?, if_pos rfl] at found
        cases found
        refine ⟨⟨rfl, values⟩, ?_, ?_⟩
        · intro e inside
          simpa [Assoc.find?, apart (first e inside)] using known e inside
        · intro e inside
          simpa [Assoc.contains, Assoc.find?, apart (first' e inside)] using known' e inside

/-! ## Lists -/

theorem diffItems_cons (i : Nat) (x : Json) (xs ys : List Json) :
    diffItems i (x :: xs) ys =
      addDifference (toString i) (found? x ys[0]?) (diffItems (i + 1) xs ys.tail) := by
  cases ys <;> rw [diffItems] <;> rfl

theorem toString_ne_of_lt {i j : Nat} (before : i < j) : toString i ≠ toString j := by
  intro same
  have := toString_injective same
  omega

theorem find?_addPlaces (i j count : Nat) :
    Assoc.find? (toString (i + j)) (addPlaces i count) = if j < count then some .leaf else none := by
  induction count generalizing i j with
  | zero => rfl
  | succ count ih =>
    rw [addPlaces]
    cases j with
    | zero => exact Assoc.find?_insert_self _ _ _
    | succ j =>
      rw [Assoc.find?_insert_ne (toString_ne_of_lt (by omega)), show i + (j + 1) = i + 1 + j by omega,
        ih]
      simp

theorem place_of_find?_addPlaces {i count : Nat} {t : DirtyTree}
    (found : Assoc.find? s (addPlaces i count) = some t) : ∃ j : Nat, i ≤ j ∧ s = toString j := by
  induction count generalizing i with
  | zero => cases found
  | succ count ih =>
    by_cases first : toString i = s
    · exact ⟨i, Nat.le_refl i, first.symm⟩
    · rw [addPlaces, Assoc.find?_insert_ne first] at found
      obtain ⟨j, behind, place⟩ := ih found
      exact ⟨j, by omega, place⟩

/-- What is found in lists from a place on is in one of the places from there. -/
theorem place_of_find?_diffItems {i : Nat} {xs ys : List Json} {t : DirtyTree}
    (found : Assoc.find? s (diffItems i xs ys) = some t) : ∃ j : Nat, i ≤ j ∧ s = toString j := by
  induction xs generalizing i ys with
  | nil =>
    rw [diffItems] at found
    exact place_of_find?_addPlaces found
  | cons x xs ih =>
    by_cases first : toString i = s
    · exact ⟨i, Nat.le_refl i, first.symm⟩
    · rw [diffItems_cons, find?_addDifference_ne first] at found
      obtain ⟨j, behind, place⟩ := ih found
      exact ⟨j, by omega, place⟩

/-- Lists are compared place by place. -/
theorem find?_diffItems (i j : Nat) (xs ys : List Json) :
    Assoc.find? (toString (i + j)) (diffItems i xs ys) = between? xs[j]? ys[j]? := by
  induction xs generalizing i j ys with
  | nil =>
    rw [diffItems, find?_addPlaces]
    by_cases inside : j < ys.length <;> simp [between?, inside]
  | cons x xs ih =>
    rw [diffItems_cons]
    cases j with
    | zero =>
      apply find?_addDifference_self
      apply Option.eq_none_iff_forall_ne_some.mpr
      intro t found
      obtain ⟨j, behind, same⟩ := place_of_find?_diffItems found
      exact toString_ne_of_lt behind same
    | succ j =>
      rw [find?_addDifference_ne (toString_ne_of_lt (by omega)),
        show i + (j + 1) = i + 1 + j by omega, ih]
      cases ys <;> simp

theorem diffItems_eq_nil {i : Nat} {xs ys : List Json}
    (each : ∀ x ∈ xs, ∀ y ∈ ys, diff? x y = none ↔ x.same y = true) :
    diffItems i xs ys = [] ↔ sameItems xs ys = true := by
  induction xs generalizing i ys with
  | nil =>
    rw [diffItems]
    cases ys <;> simp [addPlaces, sameItems, Assoc.insert_ne_nil]
  | cons x xs ih =>
    rw [diffItems_cons, addDifference_eq_nil]
    cases ys with
    | nil => simp [found?, sameItems]
    | cons y ys =>
      have others : diffItems (i + 1) xs ys = [] ↔ sameItems xs ys = true :=
        ih fun x' inside y' inside' =>
          each x' (List.mem_cons_of_mem _ inside) y' (List.mem_cons_of_mem _ inside')
      have first := each x List.mem_cons_self y List.mem_cons_self
      simp [found?, sameItems, first, others]

/-! ## Values -/

/-- Values that are not two objects or two lists are compared as a whole. -/
theorem diff?_unlike {a b : Json} (h : a.kind? ≠ b.kind? ∨ a.kind? = none) :
    diff? a b = if a.same b then none else some .leaf := by
  cases a with
  | obj ms =>
    cases b with
    | obj => simp [kind?] at h
    | _ => rw [diff?] <;> simp
  | arr xs =>
    cases b with
    | arr => simp [kind?] at h
    | _ => rw [diff?] <;> simp
  | _ => rw [diff?] <;> simp

theorem diff?_eq_none {a b : Json} (proper : a.Proper) (proper' : b.Proper) :
    diff? a b = none ↔ a.same b = true := by
  have whole {a b : Json} (h : a.kind? ≠ b.kind? ∨ a.kind? = none) :
      diff? a b = none ↔ a.same b = true := by
    rw [diff?_unlike h]
    split <;> simp_all
  induction proper generalizing b with
  | @arr xs _ _ ih =>
    cases proper' with
    | @arr ys _ items =>
      rw [diff?, branch?_eq_none, same]
      exact diffItems_eq_nil fun x inside y inside' => ih x inside (items y inside')
    | _ => exact whole (.inl (by simp [kind?]))
  | @obj ms sorted _ ih =>
    cases proper' with
    | @obj ns sorted' members =>
      rw [diff?, branch?_eq_none, addMissing_eq_nil, diffMembers_eq_nil, same,
        sameMembers_iff sorted sorted']
      refine and_congr_left fun _ => forall₂_congr fun e inside => exists_congr fun old => ?_
      exact and_congr_right fun found => ih e inside (members _ (Assoc.mem_of_find? found))
    | _ => exact whole (.inl (by simp [kind?]))
  | _ => exact whole (.inr rfl)

theorem same_unlike {a b : Json} (h : a.kind? ≠ b.kind?) : a.same b = false := by
  cases a <;> cases b <;> simp [kind?] at h <;> simp [same]

/-- Two containers of one kind are compared place by place. -/
theorem diff?_child {x y c : Json} (proper : x.Proper) (alike : x.kind? = y.kind?)
    (child : x.child? s = some c)
    (decimal : ∀ i, x.kind? = some .list → FieldPath.index? s = some i → s = toString i) :
    ∃ m, diff? x y = branch? m ∧ Assoc.find? s m = found? c (y.child? s) := by
  obtain ⟨k, kind⟩ := kind?_of_child? child
  rw [kind] at alike
  cases k with
  | object =>
    obtain ⟨ms, rfl⟩ := kind?_eq_object kind
    obtain ⟨ns, rfl⟩ := kind?_eq_object alike.symm
    cases proper with
    | obj sorted _ =>
      refine ⟨_, by rw [diff?], ?_⟩
      rw [find?_members sorted, show Assoc.find? s ms = some c from child]
      rfl
  | list =>
    obtain ⟨xs, rfl⟩ := kind?_eq_list kind
    obtain ⟨ys, rfl⟩ := kind?_eq_list alike.symm
    obtain ⟨i, index, item⟩ := Option.bind_eq_some_iff.mp child
    have place := find?_diffItems 0 i xs ys
    rw [Nat.zero_add, ← decimal i rfl index, item] at place
    refine ⟨_, by rw [diff?], ?_⟩
    rw [place, child?, index]
    rfl

/-- The difference under a segment is that of what the segment leads to. -/
theorem reached_found?_cons {x c : Json} {o : Option Json} (proper : x.Proper)
    (kinds : x.kind? = (containerFor s o).kind?) (child : x.child? s = some c)
    (decimal : ∀ i, x.kind? = some .list → FieldPath.index? s = some i → s = toString i) :
    reached (found? x o) (s :: rest) =
      reached (found? c ((containerFor s o).child? s)) rest := by
  rcases containerFor_cases o with fresh | ⟨y, k, rfl, _, there⟩
  · rw [containerFor_fresh_child fresh]
    cases o with
    | none => rfl
    | some y =>
      obtain ⟨k, kind⟩ := kind?_of_child? child
      have scalar : y.kind? = none := fresh
      have apart : x.kind? ≠ y.kind? := by simp [kind, scalar]
      rw [found?, diff?_unlike (.inl apart), same_unlike apart]
      rfl
  · rw [there] at kinds ⊢
    obtain ⟨m, compared, place⟩ := diff?_child proper kinds child decimal
    rw [found?, compared, reached_branch?, place]

/-- The difference of `x` from what is in the same place touches what a path of `x` leads to iff the
other side has something else there. -/
theorem reached_found? {x v : Json} {o : Option Json} {q : List String} (proper : x.Proper)
    (proper' : ∀ y, o = some y → y.Proper) (fits : Fits x o q) (canonical : x.Canonical q)
    (live : x.follow? q = some v) :
    reached (found? x o) q = true ↔ ¬ ∃ w, reach? o q = some w ∧ v.same w = true := by
  induction q generalizing x o with
  | nil =>
    obtain rfl : x = v := Option.some.inj live
    cases o with
    | none => simp [found?, reached, reach?]
    | some y =>
      have none := diff?_eq_none proper (proper' y rfl)
      rw [found?]
      cases found : diff? x y with
      | none => simp [reached, reach?, follow?, none.mp found]
      | some t =>
        have differs : ¬ x.same y = true := fun same => by simp [none.mpr same] at found
        cases t <;> simp [reached, touches, reach?, follow?, differs]
  | cons s rest ih =>
    obtain ⟨kinds, c, child, below⟩ := fits
    have decimal : ∀ i, x.kind? = some .list → FieldPath.index? s = some i → s = toString i :=
      fun i list index => canonical [] s rest rfl list i index
    rw [reached_found?_cons proper kinds child decimal, reach?_cons]
    rw [follow?, child] at live
    refine ih (proper.child? child) ?_ below (canonical.below child) live
    intro y there
    exact (Proper.containerFor proper' s).child? there

end DirtyTree

namespace DirtyFields

open DirtyTree

variable {x y v : Json} {p : FieldPath}

/-- The marks of two objects are the branches of their difference. -/
theorem branch?_diff (object : x.kind? = some .object) (object' : y.kind? = some .object) :
    branch? (DirtyFields.diff x y).children = diff? x y := by
  obtain ⟨ms, rfl⟩ := kind?_eq_object object
  obtain ⟨ns, rfl⟩ := kind?_eq_object object'
  rw [DirtyFields.diff, diff?]
  cases addMissing ms ns (diffMembers ms ns) <;> rfl

/-- Of two objects the marks touch a path of the first iff the second has something else there. -/
theorem touches_diff (proper : x.Proper) (proper' : y.Proper) (object : x.kind? = some .object)
    (object' : y.kind? = some .object) (named : p.segments ≠ []) (fits : Fits x (some y) p.segments)
    (canonical : x.Canonical p.segments) (live : x.get? p = some v) :
    (DirtyFields.diff x y).touches p = true ↔ ¬ ∃ w, y.get? p = some w ∧ v.same w = true := by
  have reaches := reached_found? proper proper'.there fits canonical live
  obtain ⟨s, rest, segments⟩ := List.exists_cons_of_ne_nil named
  rw [segments, found?, ← branch?_diff object object', reached_branch?, ← touches_cons] at reaches
  rw [touches, get?, segments]
  exact reaches

end DirtyFields

end LiveForm
