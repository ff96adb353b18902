import LiveForm.Proofs.Json.Frame

/-!
# Laws of reading and writing

* `Json.overruns`, `Json.write?_eq_none`: a write has a result unless it asks a list for its last
  index;
* `Json.graft?_again`: of two writes at one path the second counts;
* `Json.parting?`: where two paths part in a value;
* `Json.graft?_lost`, `Json.graft?_absent`: what a write makes of a path that parts from its own;
* `lens_laws`: all that for a write into a value of any shape.
-/

set_option autoImplicit false

namespace LiveForm

namespace Json

variable {t t' v w : Json} {o : Option Json} {s s' turn : String} {q r c path : List String}

/-! ## Writes without a result -/

/-- The segment names the last index of a list. -/
def asksLast (t : Json) (s : String) : Bool :=
  t.isArray && FieldPath.index? s == some FieldPath.lastIndex

/-- A write comes to a list, which was there or is made on the way, and asks for its last index. -/
def overruns (t : Json) : List String → Bool
  | [] => false
  | [s] => t.asksLast s
  | s :: next :: rest => t.asksLast s || overruns (containerFor next (t.child? s)) (next :: rest)

theorem putChild?_eq_none : t.putChild? s v = none ↔ t.asksLast s = true := by
  cases t with
  | arr xs =>
    cases index : FieldPath.index? s <;> simp [putChild?, asksLast, isArray, index]
  | _ => simp [putChild?, asksLast, isArray]

theorem write?_eq_none : t.write? path v = none ↔ t.overruns path = true := by
  induction path generalizing t with
  | nil => simp [write?, overruns]
  | cons s rest ih =>
    cases rest with
    | nil => exact putChild?_eq_none
    | cons next rest =>
      rw [write?, overruns, Bool.or_eq_true, ← ih, Option.bind_eq_none_iff]
      constructor
      · intro none
        cases inner : write? (containerFor next (t.child? s)) (next :: rest) v with
        | none => exact .inr rfl
        | some u => exact .inl (putChild?_eq_none.mp (none u inner))
      · rintro (last | none)
        · intro u _
          exact putChild?_eq_none.mpr last
        · intro u inner
          rw [none] at inner
          cases inner

/-! ## One path -/

theorem putItem_putItem (v w : Json) (i : Nat) (xs : List Json) :
    putItem w i (putItem v i xs) = putItem w i xs := by
  induction i generalizing xs with
  | zero => cases xs <;> rfl
  | succ i ih => cases xs <;> simp [putItem, ih]

/-- A value takes the place of one that has been put under the same segment. -/
theorem putChild?_again {k : Kind} (kind : t.kind? = some k) (put : t.putChild? s v = some t') :
    t'.putChild? s w = t.putChild? s w := by
  cases k with
  | object =>
    obtain ⟨ms, rfl⟩ := kind?_eq_object kind
    cases put
    exact congrArg (some ∘ Json.obj) (Assoc.insert_insert s v w ms)
  | list =>
    obtain ⟨xs, rfl⟩ := kind?_eq_list kind
    cases index : FieldPath.index? s with
    | none =>
      simp only [putChild?, index, Option.some.injEq] at put
      subst put
      simp [putChild?, index, Assoc.insert]
    | some i =>
      simp only [putChild?, index, Option.ite_none_left_eq_some, Option.some.injEq] at put
      obtain ⟨inner, rfl⟩ := put
      simp [putChild?, index, inner, putItem_putItem]

theorem graft?_again (written : graft? o r v = some t') :
    graft? (some t') r w = graft? o r w := by
  induction r generalizing o t' with
  | nil => rfl
  | cons s r ih =>
    obtain ⟨u, inner, put⟩ := graft?_cons.mp written
    obtain ⟨k, kind⟩ := containerFor_kind s o
    have here : t'.child? s = some u := putChild?_here kind put
    obtain ⟨k', kind'⟩ := kind?_of_child? here
    rw [graft?, graft?, containerFor_of_kind? kind', here, ih inner, containerFor_child?]
    exact Option.bind_congr fun c _ => putChild?_again kind put

/-! ## Two paths -/

/-- The way to the container in which two paths part, with the segment by which the second leaves it.
It is walked along the first, and in a list segments that name one index are one step. -/
def parting? (t : Json) : List String → List String → Option (List String × String)
  | s :: q, s' :: r =>
    match t.kind? with
    | some k =>
      if k.SamePlace s s' then
        (t.child? s).bind fun x => (x.parting? q r).map fun found => (s :: found.1, found.2)
      else some ([], s')
    | none => none
  | _, _ => none

theorem parting?_cons : t.parting? (s :: q) (s' :: r) = some (c, turn) ↔ ∃ k, t.kind? = some k ∧
    (k.SamePlace s s' ∧ (∃ x c', t.child? s = some x ∧ x.parting? q r = some (c', turn) ∧ c = s :: c') ∨
      ¬ k.SamePlace s s' ∧ c = [] ∧ turn = s') := by
  cases kind : t.kind? with
  | none => simp [parting?, kind]
  | some k =>
    by_cases same : k.SamePlace s s'
    · simp only [parting?, kind, same, if_true, Option.bind_eq_some_iff, Option.map_eq_some_iff,
        Option.some.injEq, exists_eq_left', true_and, not_true_eq_false, false_and, or_false]
      constructor
      · rintro ⟨x, child, found, below, split⟩
        cases split
        exact ⟨x, found.1, child, below, rfl⟩
      · rintro ⟨x, c', child, below, rfl⟩
        exact ⟨x, child, _, below, rfl⟩
    · simp [parting?, kind, same, eq_comm]

theorem ne_nil_of_parting? (found : t.parting? q r = some (c, turn)) : q ≠ [] ∧ r ≠ [] := by
  constructor
  · rintro rfl
    cases found
  · rintro rfl
    cases q <;> cases found

/-- Paths part as long as the container stays what it is. -/
theorem parts_of_parting? (found : t.parting? q r = some (c, turn))
    (stays : t.kindAt? c = some .list → FieldPath.index? turn ≠ none) : parts t q r = true := by
  induction q generalizing t r c with
  | nil => cases found
  | cons s q ih =>
    cases r with
    | nil => cases found
    | cons s' r =>
      obtain ⟨k, kind, place⟩ := parting?_cons.mp found
      refine parts_cons.mpr ⟨k, kind, ?_⟩
      rcases place with ⟨same, x, c', child, below, rfl⟩ | ⟨other, rfl, rfl⟩
      · refine .inl ⟨same, x, child, ih below ?_⟩
        rwa [kindAt?_cons child] at stays
      · refine .inr ⟨other, ?_⟩
        cases k with
        | object => exact .inl rfl
        | list => exact .inr (Option.isSome_iff_ne_none.mpr (stays kind))

/-- A list gives way to an object where a path leaves it by a key, and what another path leads to in it
is gone. -/
theorem graft?_lost {x : Json} (live : t.follow? q = some x)
    (found : t.parting? q r = some (c, turn)) (list : t.kindAt? c = some .list)
    (key : FieldPath.index? turn = none) (written : graft? (some t) r v = some t') :
    t'.kindAt? c = some .object ∧ t'.follow? q = none := by
  induction q generalizing t r c t' with
  | nil => cases found
  | cons s q ih =>
    cases r with
    | nil => cases found
    | cons s' r =>
      obtain ⟨k, kind, place⟩ := parting?_cons.mp found
      obtain ⟨u, inner, put⟩ := graft?_cons.mp written
      obtain ⟨y, child, onward⟩ := Option.bind_eq_some_iff.mp live
      rw [containerFor_of_kind? kind] at put
      rcases place with ⟨same, x, c', child', below, rfl⟩ | ⟨other, rfl, rfl⟩
      · obtain rfl : y = x := Option.some.inj (child.symm.trans child')
        have there : t'.child? s = some u := by
          rcases putChild?_cases kind put with ⟨puts, -⟩ | ⟨rfl, none, -⟩
          · exact puts.here s same.symm
          · have index := index?_of_list kind child
            rw [show FieldPath.index? s = FieldPath.index? s' from same, none] at index
            cases index
        rw [kindAt?_cons child] at list
        rw [Option.bind_some, child?_samePlace kind same, child] at inner
        rw [kindAt?_cons there, follow?, there]
        exact ih onward below list inner
      · obtain rfl : k = .list := Option.some.inj (kind.symm.trans list)
        rcases putChild?_cases kind put with ⟨-, index⟩ | ⟨-, -, rfl⟩
        · rw [key] at index
          cases index rfl
        · have index := index?_of_list kind child
          have differ : turn ≠ s := by
            rintro rfl
            rw [key] at index
            cases index
          refine ⟨rfl, ?_⟩
          rw [follow?, child?, Assoc.find?, if_neg differ]
          rfl

/-- Another place of a container that a value was put into is as it was, or gone with the list that
was there, or an item that fills up a list. -/
theorem putChild?_passed {k k' : Kind} (kind : t.kind? = some k) (put : t.putChild? s v = some t')
    (kind' : t'.kind? = some k') (other : ¬ k'.SamePlace s turn) :
    t'.child? turn = t.child? turn ∨ t'.child? turn = none ∨
      t'.child? turn = some .null ∧ k' = .list := by
  rcases putChild?_cases kind put with ⟨puts, -⟩ | ⟨-, -, rfl⟩
  · obtain rfl : k = k' := Option.some.inj (puts.kind.symm.trans kind')
    cases k with
    | object =>
      obtain ⟨ms, rfl⟩ := kind?_eq_object kind
      cases put
      exact .inl (Assoc.find?_insert_ne other v ms)
    | list =>
      apply (puts.elsewhere turn other).imp_right
      rintro ⟨-, null⟩
      exact .inr ⟨null, rfl⟩
  · obtain rfl : .object = k' := Option.some.inj kind'
    exact .inr (.inl (if_neg other))

/-- A path that led to nothing and parts from that of a write leads to nothing still, or to an item
that fills up a list. -/
theorem graft?_absent (absent : reach? o q = none) (written : graft? o r v = some t')
    (found : t'.parting? r q = some (c, turn)) :
    t'.follow? q = none ∨ t'.follow? q = some .null ∧ t'.kindAt? c = some .list ∧
      q.length = c.length + 1 := by
  induction r generalizing o t' q c with
  | nil => cases found
  | cons s r ih =>
    cases q with
    | nil => cases found
    | cons s' q =>
      obtain ⟨k, kind, place⟩ := parting?_cons.mp found
      obtain ⟨u, inner, put⟩ := graft?_cons.mp written
      obtain ⟨k', kind'⟩ := containerFor_kind s o
      have here : t'.child? s = some u := putChild?_here kind' put
      rw [reach?_child] at absent
      rcases place with ⟨same, x, c', child, below, rfl⟩ | ⟨other, rfl, rfl⟩
      · obtain rfl : u = x := Option.some.inj (here.symm.trans child)
        -- the place was one before, too
        have before : (o.bind fun t => t.child? s') = o.bind fun t => t.child? s := by
          rw [← containerFor_child? s, ← containerFor_child? s]
          cases k with
          | object => rw [show s = s' from same]
          | list =>
            rcases putChild?_cases kind' put with ⟨puts, -⟩ | ⟨-, -, rfl⟩
            · have list : k' = .list := Option.some.inj (puts.kind.symm.trans kind)
              exact child?_samePlace (list ▸ kind') same
            · cases kind
        rw [before] at absent
        rw [kindAt?, follow?, follow?, child?_samePlace kind same, here, List.length_cons,
          List.length_cons, Nat.add_right_cancel_iff]
        exact ih absent inner below
      · rcases putChild?_passed kind' put kind other with same | gone | ⟨null, rfl⟩
        · rw [containerFor_child?] at same
          rw [follow?, same]
          exact .inl absent
        · rw [follow?, gone]
          exact .inl rfl
        · rw [follow?, null]
          cases q with
          | nil => exact .inr ⟨rfl, kind, rfl⟩
          | cons => exact .inl rfl

/-! ## Any root -/

/-- What a write starts from: an empty object takes the place of a scalar. -/
def trunk (t : Json) : Json := if t.kind? = none then emptyObject else t

theorem trunk_of_kind? {k : Kind} (kind : t.kind? = some k) : t.trunk = t := by
  simp [trunk, kind]

theorem trunk_kind? (t : Json) : ∃ k, t.trunk.kind? = some k := by
  cases kind : t.kind? with
  | none =>
    rw [trunk, if_pos kind]
    exact ⟨.object, rfl⟩
  | some k =>
    rw [trunk_of_kind? kind]
    exact ⟨k, kind⟩

theorem trunk_child? (t : Json) (s : String) : t.trunk.child? s = t.child? s := by
  cases t <;> rfl

theorem trunk_putChild? (t : Json) (s : String) (v : Json) :
    t.trunk.putChild? s v = t.putChild? s v := by
  cases t <;> rfl

theorem set?_eq_graft?_trunk {p : FieldPath} (named : p.segments ≠ []) (t v : Json) :
    t.set? p v = graft? (some t.trunk) p.segments v := by
  obtain ⟨segments⟩ := p
  obtain ⟨s, rest, rfl⟩ := List.exists_cons_of_ne_nil named
  obtain ⟨k, kind⟩ := trunk_kind? t
  rw [← write?_eq_graft? kind, set?]
  cases rest with
  | nil => exact (trunk_putChild? t s v).symm
  | cons next rest => simp only [write?, trunk_child?, trunk_putChild?]

theorem trunk_follow? (h : path ≠ []) : t.trunk.follow? path = t.follow? path := by
  obtain ⟨s, rest, rfl⟩ := List.exists_cons_of_ne_nil h
  rw [follow?, follow?, trunk_child?]

theorem trunk_of_follow? {x : Json} (h : path ≠ []) (live : t.follow? path = some x) :
    t.trunk = t := by
  obtain ⟨s, rest, rfl⟩ := List.exists_cons_of_ne_nil h
  obtain ⟨c, child, -⟩ := Option.bind_eq_some_iff.mp live
  obtain ⟨k, kind⟩ := kind?_of_child? child
  exact trunk_of_kind? kind

end Json

open Json

/-- Reading and writing at paths, in a value of any shape and where no list is asked for its last
index:

* what was written is read;
* to write what is there changes nothing;
* of two writes at one path the second counts;
* what another path leads to stays if the write parts from it. Only if the write leaves a list by a
  key is the list replaced by an object, and what was in it gone;
* a path that led to nothing and parts from that of the write leads to nothing still, or to a `null`
  that fills up a list. -/
theorem lens_laws {t : Json} {p : FieldPath} (proper : t.Proper) (named : p.segments ≠ [])
    (room : t.overruns p.segments = false) (v w : Json) :
    ∃ t', t.set? p v = some t' ∧ t'.get? p = some v ∧
      (∀ x, t.get? p = some x → t.set? p x = some t) ∧
      (∃ t'', t'.set? p w = some t'' ∧ t.set? p w = some t'') ∧
      (∀ q x c s, t.get? q = some x → t.parting? q.segments p.segments = some (c, s) →
        if t.kindAt? c = some .list ∧ FieldPath.index? s = none then
          t'.kindAt? c = some .object ∧ t'.get? q = none
        else t'.get? q = some x) ∧
      ∀ q c s, t.get? q = none → t'.parting? p.segments q.segments = some (c, s) →
        t'.get? q = none ∨ t'.get? q = some .null ∧ t'.kindAt? c = some .list ∧
          q.length = c.length + 1 := by
  have defined (v : Json) : ∃ t', t.set? p v = some t' := by
    apply Option.ne_none_iff_exists'.mp
    intro none
    rw [write?_eq_none.mp none] at room
    cases room
  have written {v t' : Json} (set : t.set? p v = some t') :
      graft? (some t.trunk) p.segments v = some t' := set?_eq_graft?_trunk named t v ▸ set
  obtain ⟨t', set⟩ := defined v
  have here : t'.get? p = some v := graft?_here (written set)
  have rooted : t'.trunk = t' := trunk_of_follow? named here
  refine ⟨t', set, here, ?_, ?_, ?_, ?_⟩
  · intro x live
    rw [set?_eq_graft?_trunk named, trunk_of_follow? named live]
    exact graft?_found proper live
  · obtain ⟨t'', set'⟩ := defined w
    refine ⟨t'', ?_, set'⟩
    rw [set?_eq_graft?_trunk named, rooted, graft?_again (written set)]
    exact written set'
  · intro q x c s live found
    have write := written set
    rw [trunk_of_follow? (ne_nil_of_parting? found).1 live] at write
    split
    · rename_i gives
      exact graft?_lost live found gives.1 gives.2 write
    · rename_i stays
      have apart := parts_of_parting? found fun list key => stays ⟨list, key⟩
      rcases (graft?_parts apart write).1 with same | ⟨none, -⟩
      · exact same.trans live
      · rw [show t.follow? q.segments = some x from live] at none
        cases none
  · intro q c s absent found
    apply graft?_absent _ (written set) found
    exact (trunk_follow? (ne_nil_of_parting? found).2).trans absent

/-- A list of two items is written to at the index 3, and by a key. The item `01` stays in the one
case and is gone in the other. -/
theorem lens_laws_rows :
    ∃ rows longer keyed, rows = Json.obj [("rows", .arr [.int 1, .int 2])] ∧
      rows.set? ⟨["rows", "3"]⟩ (.bool true) = some longer ∧
      longer.get? ⟨["rows", "3"]⟩ = some (.bool true) ∧
      longer.get? ⟨["rows", "01"]⟩ = some (.int 2) ∧
      (longer.get? ⟨["rows", "2"]⟩ = none ∨ longer.get? ⟨["rows", "2"]⟩ = some .null) ∧
      rows.set? ⟨["rows", "sum"]⟩ (.int 3) = some keyed ∧
      keyed.kindAt? ["rows"] = some .object ∧ keyed.get? ⟨["rows", "01"]⟩ = none := by
  have proper : (Json.obj [("rows", .arr [.int 1, .int 2])]).Proper := by
    apply Proper.member
    apply Proper.arr (by decide)
    exact List.forall_mem_cons.mpr ⟨.int 1, List.forall_mem_singleton.mpr (.int 2)⟩
  have one : FieldPath.index? "01" = some 1 := by decide +kernel
  have three : FieldPath.index? "3" = some 3 := by decide +kernel
  have live : (Json.obj [("rows", .arr [.int 1, .int 2])]).get? ⟨["rows", "01"]⟩ = some (.int 2) := by
    simp [get?, follow?, child?, Assoc.find?, one]
  obtain ⟨longer, set, here, -, -, kept, absent⟩ :=
    lens_laws (p := ⟨["rows", "3"]⟩) proper (by simp) (by decide +kernel) (.bool true) .null
  obtain ⟨keyed, set', -, -, -, lost, -⟩ :=
    lens_laws (p := ⟨["rows", "sum"]⟩) proper (by simp) (by decide +kernel) (.int 3) .null
  refine ⟨_, longer, keyed, rfl, set, here, ?_, ?_, set', ?_⟩
  · have item := kept ⟨["rows", "01"]⟩ (.int 2) ["rows"] "3" live (by decide +kernel)
    rwa [if_neg (by decide +kernel)] at item
  · have made : longer = .obj [("rows", .arr [.int 1, .int 2, .null, .bool true])] := by
      simpa [set?, write?, containerFor, child?, putChild?, putItem, Assoc.find?, Assoc.insert,
        three, FieldPath.lastIndex, Text.wordBound] using set.symm
    have none : (Json.obj [("rows", .arr [.int 1, .int 2])]).get? ⟨["rows", "2"]⟩ = none := by
      have two : FieldPath.index? "2" = some 2 := by decide +kernel
      simp [get?, follow?, child?, Assoc.find?, two]
    have item := absent ⟨["rows", "2"]⟩ ["rows"] "2" none (by rw [made]; decide +kernel)
    exact item.imp_right And.left
  · have item := lost ⟨["rows", "01"]⟩ (.int 2) ["rows"] "sum" live (by decide +kernel)
    rwa [if_pos (by decide +kernel)] at item

end LiveForm
