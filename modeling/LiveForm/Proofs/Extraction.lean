import LiveForm.Proofs.Json.Frame
import LiveForm.Proofs.Marks

/-!
# What the marks pick

* `DirtyTree.find?_extractMembers`, `DirtyTree.extractItems_place`: what is picked from an object and
  from a list;
* `DirtyTree.governing?`: the marks that count for what a path leads to. In a list the last spelling
  of an index that is marked counts;
* `DirtyTree.extract_follow?`: these marks pick from what the path leads to;
* `DirtyTree.Plain`: in the lists on the way of a path no other mark names the same index and counts;
* `DirtyTree.extract_marked`: what a marked path leads to is picked then.
-/

set_option autoImplicit false

namespace LiveForm

open Json

namespace DirtyTree

variable {k s : String} {t : DirtyTree} {m : List (String × DirtyTree)} {i : Nat} {c y : Json}
  {xs picked : List Json}

/-! ## Objects -/

theorem find?_extractMembers (m : List (String × DirtyTree)) (ms : List (String × Json)) :
    Assoc.find? k (extractMembers m ms) =
      (Assoc.find? k m).bind fun t => (Assoc.find? k ms).map t.extract := by
  induction m with
  | nil => rw [extractMembers]; rfl
  | cons e m ih =>
    obtain ⟨l, t⟩ := e
    rw [extractMembers, Assoc.find?]
    by_cases same : l = k
    · subst same
      cases found : Assoc.find? l ms with
      | none => simp [ih, found]
      | some v => simp
    · cases found : Assoc.find? l ms with
      | none => simp [ih, same]
      | some v => simp [Assoc.find?_insert_ne same, ih, same]

theorem mem_extractMembers {ms : List (String × Json)} {e : String × Json}
    (inside : e ∈ extractMembers m ms) :
    ∃ t v, (e.1, t) ∈ m ∧ Assoc.find? e.1 ms = some v ∧ e.2 = t.extract v := by
  induction m with
  | nil =>
    rw [extractMembers] at inside
    cases inside
  | cons e' m ih =>
    obtain ⟨l, u⟩ := e'
    have behind (inside : e ∈ extractMembers m ms) :
        ∃ t v, (e.1, t) ∈ (l, u) :: m ∧ Assoc.find? e.1 ms = some v ∧ e.2 = t.extract v := by
      obtain ⟨t, v, among, rest⟩ := ih inside
      exact ⟨t, v, List.mem_cons_of_mem _ among, rest⟩
    rw [extractMembers] at inside
    cases found : Assoc.find? l ms with
    | none => exact behind (by rwa [found] at inside)
    | some v =>
      rw [found] at inside
      rcases Assoc.mem_insert inside with rfl | old
      · exact ⟨u, v, List.mem_cons_self, found, rfl⟩
      · exact behind old

/-! ## Lists -/

/-- The last of the marks that names an index. -/
def lastNaming? (i : Nat) : List (String × DirtyTree) → Option DirtyTree
  | [] => none
  | (k, t) :: rest =>
    (lastNaming? i rest).or (if FieldPath.index? k = some i then some t else none)

theorem mem_of_lastNaming? (last : lastNaming? i m = some t) :
    ∃ k, (k, t) ∈ m ∧ FieldPath.index? k = some i := by
  induction m with
  | nil => cases last
  | cons e m ih =>
    obtain ⟨k, u⟩ := e
    rw [lastNaming?, Option.or_eq_some_iff] at last
    rcases last with later | ⟨-, own⟩
    · obtain ⟨k', inside, named⟩ := ih later
      exact ⟨k', List.mem_cons_of_mem _ inside, named⟩
    · rw [Option.ite_none_right_eq_some] at own
      obtain ⟨named, same⟩ := own
      cases same
      exact ⟨k, List.mem_cons_self, named⟩

/-- Among marks in order another one than that of a segment counts only if it stands behind it. -/
theorem lastNaming?_of_found (sorted : Assoc.Sorted m) (found : Assoc.find? s m = some t)
    (index : FieldPath.index? s = some i) :
    lastNaming? i m = some t ∨
      ∃ e ∈ m, FieldPath.index? e.1 = some i ∧ s < e.1 ∧ lastNaming? i m = some e.2 := by
  induction m with
  | nil => cases found
  | cons e m ih =>
    obtain ⟨k, u⟩ := e
    obtain ⟨first, others⟩ := List.pairwise_cons.mp sorted
    rw [lastNaming?]
    by_cases same : k = s
    · subst same
      rw [Assoc.find?, if_pos rfl] at found
      cases later : lastNaming? i m with
      | none => exact .inl (by simpa [index] using found)
      | some u' =>
        obtain ⟨k', inside, named⟩ := mem_of_lastNaming? later
        exact .inr ⟨_, List.mem_cons_of_mem _ inside, named, first _ inside, rfl⟩
    · rw [Assoc.find?, if_neg same] at found
      rcases ih others found with last | ⟨e, inside, named, behind, last⟩
      · exact .inl (by rw [last, Option.some_or])
      · exact .inr ⟨e, List.mem_cons_of_mem _ inside, named, behind, by rw [last, Option.some_or]⟩

/-- A mark fills the place that it names, if there is such an item, and leaves the others as they are
or fills them up. -/
theorem extractItems_cons (k : String) (t : DirtyTree) (m : List (String × DirtyTree))
    (xs picked : List Json) :
    ∃ picked', extractItems ((k, t) :: m) xs picked = extractItems m xs picked' ∧
      (picked.length ≤ xs.length → picked'.length ≤ xs.length) ∧
      (∀ i c, FieldPath.index? k = some i → xs[i]? = some c → picked'[i]? = some (t.extract c)) ∧
      ∀ i : Nat, FieldPath.index? k ≠ some i → Left picked[i]? picked'[i]? := by
  rw [extractItems]
  cases index : FieldPath.index? k with
  | none => exact ⟨picked, rfl, id, nofun, fun i _ => .inl rfl⟩
  | some j =>
    cases item : xs[j]? with
    | none =>
      refine ⟨picked, by simp [item], id, fun i c same there => ?_, fun i _ => .inl rfl⟩
      cases same
      rw [item] at there
      cases there
    | some d =>
      refine ⟨putItem (t.extract d) j picked, by simp [item], fun short => ?_,
        fun i c same there => ?_, fun i other => ?_⟩
      · have inner : j < xs.length := (List.getElem?_eq_some_iff.mp item).1
        rw [length_putItem]
        omega
      · cases same
        rw [item] at there
        cases there
        exact putItem_self _ _ _
      · exact putItem_other (fun same => other (congrArg some same.symm)) _ _

theorem length_extractItems (short : picked.length ≤ xs.length) :
    (extractItems m xs picked).length ≤ xs.length := by
  induction m generalizing picked with
  | nil =>
    rw [extractItems]
    exact short
  | cons e m ih =>
    obtain ⟨picked', step, still, -⟩ := extractItems_cons e.1 e.2 m xs picked
    rw [step]
    exact ih (still short)

/-- The place of an item takes what the last mark that names it picks. Without such a mark it is as it
was, or filled up. -/
theorem extractItems_place (m : List (String × DirtyTree)) (picked : List Json)
    (item : xs[i]? = some c) :
    Left (((lastNaming? i m).map fun t => t.extract c).or picked[i]?)
      (extractItems m xs picked)[i]? := by
  induction m generalizing picked with
  | nil =>
    rw [extractItems]
    exact .inl rfl
  | cons e m ih =>
    obtain ⟨k, t⟩ := e
    obtain ⟨picked', step, -, here, elsewhere⟩ := extractItems_cons k t m xs picked
    rw [step]
    refine Left.trans ?_ (ih picked')
    rw [lastNaming?]
    cases later : lastNaming? i m with
    | some u => exact .inl rfl
    | none =>
      by_cases named : FieldPath.index? k = some i
      · exact .inl (by simpa [named] using here i c named item)
      · simpa [named] using elsewhere i named

/-! ## Paths -/

/-- The mark that counts for a place: in an object that of its key, in a list the last one that names
its index. -/
def ruling? (m : List (String × DirtyTree)) (x : Json) (s : String) : Option DirtyTree :=
  match x with
  | .arr _ => (FieldPath.index? s).bind fun i => lastNaming? i m
  | _ => Assoc.find? s m

theorem ruling?_obj (m : List (String × DirtyTree)) (ms : List (String × Json)) (s : String) :
    ruling? m (.obj ms) s = Assoc.find? s m := rfl

theorem ruling?_arr (index : FieldPath.index? s = some i) :
    ruling? m (.arr xs) s = lastNaming? i m := by
  rw [ruling?, index, Option.bind_some]

/-- The marks that count for what a path leads to. -/
def governing? : DirtyTree → Json → List String → Option DirtyTree
  | t, _, [] => some t
  | .leaf, _, _ :: _ => some .leaf
  | .branch m, x, s :: rest =>
    (ruling? m x s).bind fun t => (x.child? s).bind fun c => governing? t c rest

theorem governing?_leaf (x : Json) (q : List String) : governing? .leaf x q = some .leaf := by
  cases q <;> rfl

theorem governing?_branch {x : Json} {rest : List String} (child : x.child? s = some c) :
    governing? (.branch m) x (s :: rest) =
      (ruling? m x s).bind fun t => t.governing? c rest := by
  rw [governing?, child]
  rfl

/-- A child is picked as the mark that counts says. Without one it is missing, or a gap in a list. -/
theorem extract_child? {x : Json} (child : x.child? s = some c) :
    Left ((ruling? m x s).map fun t => t.extract c) ((extract (.branch m) x).child? s) := by
  obtain ⟨k, kind⟩ := kind?_of_child? child
  cases k with
  | object =>
    obtain ⟨ms, rfl⟩ := kind?_eq_object kind
    have found : Assoc.find? s ms = some c := child
    refine .inl ?_
    rw [extract, child?, find?_extractMembers, found, ruling?_obj]
    cases Assoc.find? s m <;> rfl
  | list =>
    obtain ⟨xs, rfl⟩ := kind?_eq_list kind
    obtain ⟨i, index, item⟩ := Option.bind_eq_some_iff.mp child
    rw [extract, child?, index, Option.bind_some, ruling?_arr index]
    simpa using extractItems_place m [] item

/-- The marks that count for what a path leads to pick from it. Without any it is missing, or a gap in
a list. -/
theorem extract_follow? {x v : Json} {q : List String} (live : x.follow? q = some v) :
    Left ((t.governing? x q).map fun u => u.extract v) ((t.extract x).follow? q) := by
  induction q generalizing t x with
  | nil =>
    cases live
    exact .inl rfl
  | cons s rest ih =>
    cases t with
    | leaf =>
      rw [governing?_leaf, extract, live]
      exact .inl (by rw [Option.map_some, extract])
    | branch m =>
      obtain ⟨c, child, onward⟩ := Option.bind_eq_some_iff.mp live
      refine Left.trans ?_ ((extract_child? child).follow? rest)
      rw [governing?_branch child]
      cases ruling? m x s with
      | none => exact .inl rfl
      | some u => exact ih onward

/-- The marks below a path, if it is not covered. -/
def level (m : List (String × DirtyTree)) : List String → List (String × DirtyTree)
  | [] => m
  | s :: rest =>
    match Assoc.find? s m with
    | some (.branch children) => level children rest
    | _ => []

/-- In the lists of `x` on the way of `q`, marks that name the same index as the path and stand behind
the one that it goes through are leaves. -/
def Plain (m : List (String × DirtyTree)) (x : Json) (q : List String) : Prop :=
  ∀ c s rest, q = c ++ s :: rest → x.kindAt? c = some .list →
    ∀ e ∈ level m c, FieldPath.index? e.1 = FieldPath.index? s → s < e.1 → e.2 = .leaf

theorem Plain.below {children : List (String × DirtyTree)} {x : Json} {rest : List String}
    (h : Plain m x (s :: rest)) (found : Assoc.find? s m = some (.branch children))
    (child : x.child? s = some c) : Plain children c rest := by
  intro above s' rest' split list e inside
  refine h (s :: above) s' rest' (congrArg (s :: ·) split) ?_ e ?_
  · exact (kindAt?_cons child above).trans list
  · rw [level, found]
    exact inside

/-- The marks that count for a marked path cover it. -/
theorem Plain.governs {x v : Json} {q : List String} (plain : Plain m x q)
    (ordered : Ordered (.branch m)) (marked : isMarked m q = true) (live : x.follow? q = some v) :
    governing? (.branch m) x q = some .leaf := by
  induction q generalizing m x with
  | nil => cases marked
  | cons s rest ih =>
    obtain ⟨c, child, onward⟩ := Option.bind_eq_some_iff.mp live
    obtain ⟨sorted, each⟩ := ordered.children
    rw [isMarked_cons] at marked
    cases found : Assoc.find? s m with
    | none =>
      rw [found] at marked
      cases marked
    | some t =>
      rw [found] at marked
      have own : t.governing? c rest = some .leaf := by
        cases t with
        | leaf => exact governing?_leaf c rest
        | branch children =>
          exact ih (plain.below found child) (each _ (Assoc.mem_of_find? found)) marked onward
      rw [governing?_branch child]
      obtain ⟨k, kind⟩ := kind?_of_child? child
      cases k with
      | object =>
        obtain ⟨ms, rfl⟩ := kind?_eq_object kind
        rw [ruling?_obj, found]
        exact own
      | list =>
        obtain ⟨xs, rfl⟩ := kind?_eq_list kind
        obtain ⟨i, index, -⟩ := Option.bind_eq_some_iff.mp child
        rw [ruling?_arr index]
        rcases lastNaming?_of_found sorted found index with last | ⟨e, inside, named, behind, last⟩
        · rw [last]
          exact own
        · have whole : e.2 = .leaf := plain [] s rest rfl rfl e inside (named.trans index.symm) behind
          rw [last, whole]
          exact governing?_leaf c rest

/-- What is covered by the marks that count is picked as it is. -/
theorem extract_governed {x v : Json} {q : List String} (live : x.follow? q = some v)
    (covered : t.governing? x q = some .leaf) : (t.extract x).follow? q = some v := by
  have picked := extract_follow? (t := t) live
  rw [covered, Option.map_some, extract] at picked
  exact picked.resolve_right nofun

/-- What a marked path leads to is picked. -/
theorem extract_marked {x v : Json} {q : List String} (ordered : Ordered (.branch m))
    (marked : isMarked m q = true) (live : x.follow? q = some v) (plain : Plain m x q) :
    (extract (.branch m) x).follow? q = some v :=
  extract_governed live (plain.governs ordered marked live)

end DirtyTree

end LiveForm
