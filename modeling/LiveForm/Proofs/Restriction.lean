import LiveForm.Proofs.Coverage
import LiveForm.Proofs.Extraction

/-!
# What is extracted is marked, and what is marked is extracted

* `Json.PartOf`: a part of a value, with gaps in the lists;
* `DirtyTree.extract_partOf`: marks pick a part of a value;
* `DirtyTree.touched_of_governing?`: marks that count for a place touch a spelling of its path;
* `nothing_unmarked_extracted`: so each scalar that is extracted is touched;
* `DirtyTree.Overrules`, `DirtyTree.Plain.of_marks`: a path goes on below an item that another path
  goes through, in a later spelling of its index; a path that no mark overrules is plain;
* `marked_values_extracted`: what a marked path leads to is extracted, or a mark overrules it;
* `marked_value_lost`: a mark that does so.
-/

set_option autoImplicit false

namespace LiveForm

open Json

/-! ## Parts of a value -/

namespace Json

variable {part whole v : Json} {q : List String}

/-- The first value is a part of the second. Objects may lack keys. Lists may end early, and have gaps
of `null`. -/
inductive PartOf : Json → Json → Prop where
  | scalar {v : Json} (scalar : v.kind? = none) : PartOf v v
  | object {ms ns : List (String × Json)} (known : ∀ e ∈ ms, Assoc.contains e.1 ns = true)
      (each : ∀ k x y, (k, x) ∈ ms → Assoc.find? k ns = some y → PartOf x y) :
      PartOf (.obj ms) (.obj ns)
  | list {xs ys : List Json} (short : xs.length ≤ ys.length)
      (each : ∀ (i : Nat) x y, xs[i]? = some x → ys[i]? = some y → x ≠ .null → PartOf x y) :
      PartOf (.arr xs) (.arr ys)

theorem Proper.partOf_self (proper : v.Proper) : v.PartOf v := by
  induction proper with
  | arr _ _ ih =>
    refine .list (Nat.le_refl _) fun i x y item item' _ => ?_
    obtain rfl : x = y := Option.some.inj (item.symm.trans item')
    exact ih x (List.mem_of_getElem? item)
  | @obj ms sorted _ ih =>
    have found (k : String) (x : Json) (inside : (k, x) ∈ ms) : Assoc.find? k ms = some x :=
      sorted.find?_eq_some.mpr inside
    refine .object (fun e inside => Option.isSome_of_eq_some (found e.1 e.2 inside)) ?_
    intro k x y inside there
    obtain rfl : x = y := Option.some.inj ((found k x inside).symm.trans there)
    exact ih _ inside
  | _ => exact .scalar rfl

/-- A scalar of a part, and not a gap, is in the same place of the whole. -/
theorem PartOf.follow? (h : part.PartOf whole) (live : part.follow? q = some v)
    (scalar : v.kind? = none) (valued : v ≠ .null) : whole.follow? q = some v := by
  induction q generalizing part whole with
  | nil =>
    cases live
    cases h with
    | scalar => rfl
    | object => cases scalar
    | list => cases scalar
  | cons s rest ih =>
    obtain ⟨c, child, onward⟩ := Option.bind_eq_some_iff.mp live
    cases h with
    | scalar alone =>
      rw [child?_of_kind? alone] at child
      cases child
    | object known each =>
      have inside := Assoc.mem_of_find? child
      obtain ⟨y, there⟩ := Option.isSome_iff_exists.mp (known _ inside)
      exact Option.bind_eq_some_iff.mpr ⟨y, there, ih (each s c y inside there) onward⟩
    | @list xs ys short each =>
      obtain ⟨i, index, item⟩ := Option.bind_eq_some_iff.mp child
      have inner : i < ys.length := by
        have := (List.getElem?_eq_some_iff.mp item).1
        omega
      have there : ys[i]? = some ys[i] := List.getElem?_eq_getElem inner
      have filled : c ≠ .null := by
        rintro rfl
        cases rest with
        | nil => exact valued (Option.some.inj onward).symm
        | cons => cases onward
      refine Option.bind_eq_some_iff.mpr ⟨ys[i], ?_, ih (each i c _ item there filled) onward⟩
      exact Option.bind_eq_some_iff.mpr ⟨i, index, there⟩

end Json

namespace DirtyTree

variable {t u : DirtyTree} {m : List (String × DirtyTree)} {x v : Json} {s : String}
  {q : List String}

theorem extract_of_scalar (scalar : v.kind? = none) (t : DirtyTree) : t.extract v = v := by
  cases t with
  | leaf => rw [extract]
  | branch =>
    cases v with
    | obj | arr => cases scalar
    | _ => simp [extract]

/-- Marks pick a part of a value. -/
theorem extract_partOf (ordered : Ordered t) (proper : x.Proper) : (t.extract x).PartOf x := by
  induction ordered generalizing x with
  | leaf =>
    rw [extract]
    exact proper.partOf_self
  | @branch children _ _ ih =>
    cases proper with
    | @obj ms _ values =>
      rw [extract]
      refine .object (fun e inside => ?_) fun k y z inside there => ?_
      · obtain ⟨t, v, -, found, -⟩ := mem_extractMembers inside
        exact Option.isSome_of_eq_some found
      · obtain ⟨t, v, among, found, picked⟩ := mem_extractMembers inside
        obtain rfl : z = v := Option.some.inj (there.symm.trans found)
        obtain rfl : y = t.extract z := picked
        exact ih _ among (values _ (Assoc.mem_of_find? found))
    | @arr xs _ values =>
      rw [extract]
      refine .list (length_extractItems (Nat.zero_le _)) fun i y z picked item filled => ?_
      have place := extractItems_place children [] item
      rw [picked] at place
      cases last : lastNaming? i children with
      | none =>
        rw [last] at place
        rcases place with none | ⟨-, gap⟩
        · cases none
        · exact absurd (Option.some.inj gap) filled
      | some t =>
        rw [last] at place
        obtain rfl : y = t.extract z := by
          rcases place with taken | ⟨none, -⟩
          · exact Option.some.inj taken
          · cases none
        obtain ⟨k, among, -⟩ := mem_of_lastNaming? last
        exact ih _ among (values _ (List.mem_of_getElem? item))
    | _ =>
      rw [extract_of_scalar]
      · exact .scalar rfl
      · rfl

/-! ## Spellings of a path -/

/-- The mark that counts for a place is found under a spelling of the segment. -/
theorem ruling?_spelled {c : Json} (sorted : Assoc.Sorted m) (child : x.child? s = some c)
    (rules : ruling? m x s = some t) :
    ∃ k s', x.kind? = some k ∧ k.SamePlace s s' ∧ Assoc.find? s' m = some t := by
  obtain ⟨k, kind⟩ := kind?_of_child? child
  cases k with
  | object =>
    obtain ⟨ms, rfl⟩ := kind?_eq_object kind
    exact ⟨.object, s, rfl, rfl, rules⟩
  | list =>
    obtain ⟨xs, rfl⟩ := kind?_eq_list kind
    obtain ⟨i, index, -⟩ := Option.bind_eq_some_iff.mp child
    rw [ruling?_arr index] at rules
    obtain ⟨s', inside, named⟩ := mem_of_lastNaming? rules
    exact ⟨.list, s', rfl, index.trans named.symm, sorted.find?_eq_some.mpr inside⟩

/-- Marks that count for what a path leads to touch a spelling of the path. -/
theorem touched_of_governing? (ordered : Ordered t) (live : x.follow? q = some v)
    (governs : t.governing? x q = some u) :
    ∃ r, x.sameWay q r = true ∧ reached (some t) r = true := by
  induction q generalizing t x with
  | nil => exact ⟨[], rfl, by cases t <;> rfl⟩
  | cons s rest ih =>
    cases ordered with
    | leaf => exact ⟨s :: rest, sameWay_self live, rfl⟩
    | @branch m sorted each =>
      obtain ⟨c, child, onward⟩ := Option.bind_eq_some_iff.mp live
      rw [governing?_branch child] at governs
      obtain ⟨t, rules, below⟩ := Option.bind_eq_some_iff.mp governs
      obtain ⟨k, s', kind, same, found⟩ := ruling?_spelled sorted child rules
      obtain ⟨r, way, touched⟩ := ih (each _ (Assoc.mem_of_find? found)) onward below
      refine ⟨s' :: r, sameWay_cons.mpr ⟨k, c, kind, same, child, way⟩, ?_⟩
      rw [reached, touches_cons, found]
      exact touched

/-- A scalar that is not `null` is picked iff marks count for its place. -/
theorem extract_scalar_iff (live : x.follow? q = some v) (scalar : v.kind? = none)
    (valued : v ≠ .null) :
    (t.extract x).follow? q = some v ↔ (t.governing? x q).isSome = true := by
  have place := extract_follow? (t := t) live
  cases governs : t.governing? x q with
  | none =>
    rw [governs] at place
    refine iff_of_false (fun picked => ?_) Bool.false_ne_true
    rcases place with none | ⟨-, gap⟩
    · rw [picked] at none
      cases none
    · exact valued (Option.some.inj (picked.symm.trans gap))
  | some u =>
    rw [governs, Option.map_some, extract_of_scalar scalar] at place
    exact iff_of_true (place.resolve_right nofun) rfl

/-! ## Paths that have been marked -/

theorem at?_nil (t : DirtyTree) : t.at? [] = some t := by
  cases t <;> rfl

/-- In `x` the path `r` goes through an item of a list that `q` goes through too. It spells the index
by a text behind that of `q`, and goes on from there. -/
def Overrules (x : Json) (r q : List String) : Prop :=
  ∃ c s rest s' next rest', q = c ++ s :: rest ∧ r = c ++ s' :: next :: rest' ∧
    x.kindAt? c = some .list ∧ FieldPath.index? s' = FieldPath.index? s ∧ s < s'

theorem mem_level (bearing : Bearing m) {e : String × DirtyTree} (inside : e ∈ level m q) :
    (branch m).at? (q ++ [e.1]) = some e.2 ∧ Bears e.2 := by
  induction q generalizing m with
  | nil =>
    rw [List.nil_append, at?, bearing.sorted.find?_eq_some.mpr inside]
    exact ⟨at?_nil e.2, bearing.each e inside⟩
  | cons s q ih =>
    rw [level] at inside
    split at inside
    · rename_i children found
      rw [List.cons_append, at?, found]
      exact ih (bearing.each _ (Assoc.mem_of_find? found)).children inside
    · cases inside

/-- A path is plain if no mark overrules it. -/
theorem Plain.of_marks {marks : List FieldPath}
    (alone : ∀ r ∈ marks, ¬ Overrules x r.segments q) :
    Plain (DirtyFields.ofMarks marks).children x q := by
  intro c s rest split list e inside named behind
  obtain ⟨there, bears⟩ := mem_level (DirtyFields.ofMarks_bearing marks) inside
  obtain ⟨way, among⟩ := List.exists_mem_of_ne_nil _ (leafPaths_ne_nil bears)
  have leaf := (mem_leafPaths bears way).mp among
  cases way with
  | nil => simpa [at?_nil] using leaf
  | cons next rest' =>
    have marked : (branch (DirtyFields.ofMarks marks).children).at? (c ++ e.1 :: next :: rest') =
        some .leaf := by
      rw [List.append_cons, at?_append, there]
      exact leaf
    exact absurd ⟨c, s, rest, e.1, next, rest', split, rfl, list, named, behind⟩
      (alone _ (DirtyFields.mem_of_leaf marked))

end DirtyTree

open DirtyTree

/-- The marks that count for what a path leads to in the values of a form. -/
def DirtyFields.governing? (d : DirtyFields) (values : Json) (p : FieldPath) : Option DirtyTree :=
  (branch d.children).governing? values p.segments

/-! ## The main results -/

/-- What is extracted is a part of the values, and each scalar in it that is not `null` is among the
values in the same place, on a path that is touched in one of the spellings of its indices. -/
theorem nothing_unmarked_extracted {d : DirtyFields} (ordered : Ordered (.branch d.children))
    {values : Json} (document : values.Document) :
    (d.extract values).PartOf values ∧
      ∀ p v, (d.extract values).get? p = some v → v.kind? = none → v ≠ .null →
        values.get? p = some v ∧
          ∃ q : FieldPath, values.sameWay p.segments q.segments = true ∧ d.touches q = true := by
  have part : (d.extract values).PartOf values := extract_partOf ordered document.proper
  refine ⟨part, fun p v picked scalar valued => ?_⟩
  have live : values.get? p = some v := part.follow? picked scalar valued
  have governed := (extract_scalar_iff live scalar valued).mp picked
  obtain ⟨u, governs⟩ := Option.isSome_iff_exists.mp governed
  obtain ⟨r, way, touched⟩ := touched_of_governing? ordered live governs
  exact ⟨live, ⟨r⟩, way, touched⟩

/-- Of two items a member of the second is marked, in another spelling of its index than the decimal
digits. The first item leaves a gap. -/
theorem nothing_unmarked_extracted_gap :
    let values : Json := .obj [("a", .arr [.int 1, .obj [("x", .int 2), ("y", .int 3)]])]
    let d := DirtyFields.ofMarks [⟨["a", "01", "y"]⟩]
    d.extract values = .obj [("a", .arr [.null, .obj [("y", .int 3)]])] ∧
      (d.extract values).PartOf values ∧
      ∃ q : FieldPath, values.sameWay ["a", "1", "y"] q.segments = true ∧ d.touches q = true := by
  intro values d
  have document : values.Document := by
    refine ⟨.member _ (.arr (by decide) ?_), rfl⟩
    refine List.forall_mem_cons.mpr ⟨.int 1, List.forall_mem_singleton.mpr ?_⟩
    refine .obj (List.pairwise_pair.mpr (show "x" < "y" by decide)) ?_
    exact List.forall_mem_cons.mpr ⟨.int 2, List.forall_mem_singleton.mpr (.int 3)⟩
  have ordered : Ordered (.branch d.children) := (DirtyFields.ofMarks_bearing _).ordered
  obtain ⟨part, touched⟩ := nothing_unmarked_extracted ordered document
  exact ⟨rfl, part, (touched ⟨["a", "1", "y"]⟩ (.int 3) rfl rfl nofun).2⟩

/-- What a marked path leads to is extracted, whatever else is marked and in whatever spelling, unless
a mark overrules the path: it spells the index of an item on the way by a text behind that of the path,
and goes on below the item.

In a list the last spelling of an index counts. So the value is extracted if the marks that count for
its place cover it, and a scalar that is not `null` iff any marks count for its place. -/
theorem marked_values_extracted (marks : List FieldPath) {values v : Json} {p : FieldPath}
    (marked : (DirtyFields.ofMarks marks).isMarked p = true) (live : values.get? p = some v) :
    let d := DirtyFields.ofMarks marks
    ((d.extract values).get? p = some v ∨
      ∃ r ∈ marks, Overrules values r.segments p.segments) ∧
    (d.governing? values p = some .leaf → (d.extract values).get? p = some v) ∧
    (v.kind? = none → v ≠ .null →
      ((d.extract values).get? p = some v ↔ (d.governing? values p).isSome = true)) := by
  intro d
  refine ⟨?_, extract_governed live, extract_scalar_iff live⟩
  by_cases overruled : ∃ r ∈ marks, Overrules values r.segments p.segments
  · exact .inr overruled
  · have alone : ∀ r ∈ marks, ¬ Overrules values r.segments p.segments :=
      fun r among overrules => overruled ⟨r, among, overrules⟩
    have ordered := (DirtyFields.ofMarks_bearing marks).ordered
    exact .inl (extract_marked ordered marked live (.of_marks alone))

/-- Both members of the first item are marked, in two spellings of its index. The one in the spelling
that counts is extracted. -/
theorem marked_values_extracted_spelled :
    let values : Json := .obj [("a", .arr [.obj [("x", .int 1), ("y", .int 2)]])]
    let d := DirtyFields.ofMarks [⟨["a", "0", "x"]⟩, ⟨["a", "00", "y"]⟩]
    d.isMarked ⟨["a", "00", "y"]⟩ = true ∧ values.get? ⟨["a", "00", "y"]⟩ = some (.int 2) ∧
      (d.extract values).get? ⟨["a", "00", "y"]⟩ = some (.int 2) := by
  intro values d
  have marked : d.isMarked ⟨["a", "00", "y"]⟩ = true := by decide +kernel
  have live : values.get? ⟨["a", "00", "y"]⟩ = some (.int 2) := rfl
  obtain ⟨-, covered, -⟩ := marked_values_extracted _ marked live
  exact ⟨marked, live, covered rfl⟩

/-- The other one is lost. -/
theorem marked_value_lost :
    ∃ (marks : List FieldPath) (values v : Json) (p : FieldPath), values.Document ∧
      (DirtyFields.ofMarks marks).isMarked p = true ∧ values.get? p = some v ∧
      ((DirtyFields.ofMarks marks).extract values).get? p ≠ some v := by
  refine ⟨[⟨["a", "0", "x"]⟩, ⟨["a", "00", "y"]⟩],
    .obj [("a", .arr [.obj [("x", .int 1), ("y", .int 2)]])], .int 1, ⟨["a", "0", "x"]⟩,
    ⟨.member _ (.item ?_), rfl⟩, by decide +kernel, rfl, ?_⟩
  · refine .obj (List.pairwise_pair.mpr (show "x" < "y" by decide)) ?_
    exact List.forall_mem_cons.mpr ⟨.int 1, List.forall_mem_singleton.mpr (.int 2)⟩
  · intro kept
    cases kept

end LiveForm
