import LiveForm.Proofs.Difference

/-!
# Where the scalars of a value come from

* `FieldPath.Decimal`: a path writes all indices in decimal digits;
* `Json.Holds`: a place holds a value where a path leads to from there;
* `Json.graft?_origin`: after a write at a decimal path a scalar is what was written, or `null` that
  fills up a list, or its place has held it before.
-/

set_option autoImplicit false

namespace LiveForm

/-- Segments that read as an index write it in decimal digits. -/
def FieldPath.Decimal (p : FieldPath) : Prop :=
  ∀ s ∈ p.segments, ∀ i, FieldPath.index? s = some i → s = toString i

instance (p : FieldPath) : Decidable p.Decimal :=
  have (s : String) : Decidable (∀ i, FieldPath.index? s = some i → s = toString i) :=
    inferInstanceAs (Decidable (∀ i ∈ FieldPath.index? s, s = toString i))
  inferInstanceAs (Decidable (∀ s ∈ p.segments, _))

namespace Json

theorem Canonical.cons {t c : Json} {s : String} {rest : List String}
    (here : t.kind? = some .list → ∀ i, FieldPath.index? s = some i → s = toString i)
    (child : t.child? s = some c) (below : c.Canonical rest) : t.Canonical (s :: rest) := by
  intro above s' rest' split list i index
  cases above with
  | nil =>
    obtain ⟨rfl, rfl⟩ := List.cons_eq_cons.mp split
    exact here list i index
  | cons s above =>
    obtain ⟨rfl, tail⟩ := List.cons_eq_cons.mp split
    rw [kindAt?_cons child] at list
    exact below above s' rest' tail list i index

/-- What is in a place has `v` where the path leads to. -/
def Holds (o : Option Json) (q : List String) (v : Json) : Prop :=
  ∃ t, o = some t ∧ t.Canonical q ∧ t.follow? q = some v

theorem Holds.cons {o : Option Json} {s : String} {q : List String} {v : Json}
    (here : ∀ t, o = some t → t.kind? = some .list → ∀ i, FieldPath.index? s = some i →
      s = toString i)
    (below : Holds (o.bind fun t => t.child? s) q v) : Holds o (s :: q) v := by
  obtain ⟨c, there, canonical, live⟩ := below
  obtain ⟨t, rfl, child⟩ := Option.bind_eq_some_iff.mp there
  refine ⟨t, rfl, .cons (here t rfl) child canonical, ?_⟩
  rw [follow?, child]
  exact live

/-- After a write a scalar that is not below the path of the write has been there before. -/
theorem graft?_origin {o : Option Json} {t u v : Json} {r q : List String}
    (decimal : ∀ s ∈ r, ∀ i, FieldPath.index? s = some i → s = toString i)
    (written : graft? o r u = some t) (canonical : t.Canonical q) (live : t.follow? q = some v)
    (scalar : v.kind? = none) (valued : v ≠ .null) (beside : ¬ r <+: q) : Holds o q v := by
  induction r generalizing o t q with
  | nil => exact absurd List.nil_prefix beside
  | cons s r ih =>
    obtain ⟨decimalHere, decimalBelow⟩ := List.forall_mem_cons.mp decimal
    obtain ⟨w, below, put⟩ := graft?_cons.mp written
    obtain ⟨k, kind⟩ := containerFor_kind s o
    cases q with
    | nil =>
      -- the write has left a container here
      obtain rfl : t = v := Option.some.inj live
      obtain ⟨k', kind'⟩ := kind?_of_child? (putChild?_here kind put)
      rw [scalar] at kind'
      cases kind'
    | cons s' q =>
      obtain ⟨c, child, onward⟩ := Option.bind_eq_some_iff.mp live
      have through (same : s = s') (new : c = w) : Holds o (s' :: q) v := by
        subst same new
        have beside : ¬ r <+: q := fun below => beside (List.cons_prefix_cons.mpr ⟨rfl, below⟩)
        exact .cons (fun _ _ _ => decimalHere)
          (ih decimalBelow below (canonical.below child) onward beside)
      rcases putChild?_cases kind put with ⟨puts, -⟩ | ⟨-, -, rfl⟩
      · have spelled (list : k = .list) (i : Nat) (index : FieldPath.index? s' = some i) :
            s' = toString i := by
          subst list
          exact canonical [] s' q rfl puts.kind i index
        by_cases same : k.SamePlace s s'
        · refine through ?_ (Option.some.inj (child.symm.trans (puts.here s' same)))
          cases k with
          | object => exact same
          | list =>
            obtain ⟨i, index⟩ := Option.isSome_iff_exists.mp (index?_of_list puts.kind child)
            rw [spelled rfl i index]
            exact decimalHere i (same.trans index)
        · rcases puts.elsewhere s' same with old | ⟨-, null⟩
          · rw [child, containerFor_child?] at old
            refine .cons ?_ ⟨c, old.symm, canonical.below child, onward⟩
            rintro t' rfl list
            refine spelled (Option.some.inj ?_)
            rw [← kind, containerFor_of_kind? list, list]
          · -- the rest of the path would have to lead on from padding
            rw [child] at null
            cases null
            cases q with
            | nil => exact absurd (Option.some.inj onward).symm valued
            | cons => cases onward
      · -- the object that takes the place of a list has one member
        by_cases same : s = s'
        · rw [child?, Assoc.find?, if_pos same] at child
          exact through same (Option.some.inj child).symm
        · rw [child?, Assoc.find?, if_neg same] at child
          cases child

end Json

end LiveForm
