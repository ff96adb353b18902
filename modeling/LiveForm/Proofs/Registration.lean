import LiveForm.Proofs.Course
import LiveForm.Proofs.Json.Frame
import LiveForm.Proofs.Values

/-!
# Which fields a registry accepts, and what they write

* `Json.IsField`, `Json.Stray`: paths that are there or are a slot of a list, and paths that go into
  a list by a key;
* `Registry.fits_iff`: both fit;
* `Json.SharedList.graft?`: a write whose path leaves the lists of a schema by indices keeps them;
* `Json.graft?_stray`: a stray write puts an object in the place of the list;
* `fields_accepted`: so the fields that are accepted keep the lists of the schema;
* `stray_accepted`: but a stray path is accepted, too.
-/

set_option autoImplicit false

namespace LiveForm

namespace Json

variable {x t t' v : Json} {s key : String} {c r list q : List String}

/-! ## Paths into lists -/

theorem isArray_iff : t.isArray = true ↔ t.kind? = some .list := by
  cases t <;> simp [isArray, kind?]

/-- The path goes into a list by its last segment, which names an item of the list or a new one. -/
def Slot (t : Json) (q : List String) : Prop :=
  ∃ list s, q = list ++ [s] ∧ t.kindAt? list = some .list ∧ (FieldPath.index? s).isSome = true

/-- The path goes into a list by its last segment, which is a key and names no item. -/
def Stray (t : Json) (q : List String) : Prop :=
  ∃ list key, q = list ++ [key] ∧ t.kindAt? list = some .list ∧ FieldPath.index? key = none

/-- The path is there, or is a slot of a list that is there. -/
def IsField (t : Json) (q : List String) : Prop := (t.follow? q).isSome = true ∨ t.Slot q

/-- The path leaves each list on its way by an index. -/
def Indexed (t : Json) (q : List String) : Prop :=
  ∀ c s rest, q = c ++ s :: rest → t.kindAt? c = some .list → (FieldPath.index? s).isSome = true

theorem slot_or_stray :
    t.Slot q ∨ t.Stray q ↔ ∃ list s, q = list ++ [s] ∧ t.kindAt? list = some .list := by
  constructor
  · rintro (⟨list, s, split, kind, -⟩ | ⟨list, s, split, kind, -⟩) <;> exact ⟨list, s, split, kind⟩
  · rintro ⟨list, s, split, kind⟩
    cases index : FieldPath.index? s with
    | none => exact .inr ⟨list, s, split, kind, index⟩
    | some i => exact .inl ⟨list, s, split, kind, Option.isSome_of_eq_some index⟩

/-- A path that is there leaves lists by an index. -/
theorem indexed_of_live (live : t.follow? q = some v) : t.Indexed q := by
  rintro c s rest rfl kind
  obtain ⟨l, there, kind⟩ := Option.bind_eq_some_iff.mp kind
  rw [follow?_append, there, Option.bind_some] at live
  obtain ⟨x, child, -⟩ := Option.bind_eq_some_iff.mp live
  exact index?_of_list kind child

theorem Slot.indexed (slot : t.Slot q) : t.Indexed q := by
  obtain ⟨list, s, rfl, kind, index⟩ := slot
  obtain ⟨l, there, -⟩ := Option.bind_eq_some_iff.mp kind
  intro c s' rest split kind'
  -- either the slot itself is left, or a list on the way to its list
  rcases List.eq_nil_or_concat rest with rfl | ⟨rest, last, rfl⟩
  · obtain ⟨rfl, same⟩ := List.append_inj' split rfl
    cases same
    exact index
  · have split : list ++ [s] = (c ++ s' :: rest) ++ [last] := by simpa using split
    obtain ⟨rfl, -⟩ := List.append_inj' split rfl
    exact indexed_of_live there c s' rest rfl kind'

theorem Indexed.below (h : x.Indexed (s :: r)) (child : x.child? s = some v) : v.Indexed r := by
  rintro c s' rest rfl kind
  exact h (s :: c) s' rest rfl ((kindAt?_cons child c).trans kind)

theorem IsField.indexed (field : t.IsField q) : t.Indexed q := by
  rcases field with there | slot
  · obtain ⟨v, live⟩ := Option.isSome_iff_exists.mp there
    exact indexed_of_live live
  · exact slot.indexed

/-! ## Writes that keep lists, and writes that do not -/

/-- Both values have a list at the path, and come to it through containers of the same kinds. -/
def SharedList (x t : Json) : List String → Prop
  | [] => x.kind? = some .list ∧ t.kind? = some .list
  | s :: c => x.kind? = t.kind? ∧
      ∃ y z, x.child? s = some y ∧ t.child? s = some z ∧ y.SharedList z c

theorem SharedList.self (h : x.kindAt? c = some .list) : x.SharedList x c := by
  induction c generalizing x with
  | nil => exact ⟨h, h⟩
  | cons s c ih =>
    obtain ⟨y, child, below⟩ := child?_of_kindAt? h
    exact ⟨rfl, y, y, child, child, ih below⟩

theorem SharedList.kind? (h : x.SharedList t c) : x.kind? = t.kind? := by
  cases c with
  | nil => exact h.1.trans h.2.symm
  | cons => exact h.1

theorem SharedList.kindAt? (h : x.SharedList t c) : t.kindAt? c = some .list := by
  induction c generalizing x t with
  | nil => exact h.2
  | cons s c ih =>
    obtain ⟨-, y, z, -, child, below⟩ := h
    exact (kindAt?_cons child c).trans (ih below)

/-- A write that leaves lists by an index keeps a list that it does not take the place of. -/
theorem SharedList.graft? (shared : x.SharedList t c) (indexed : x.Indexed r)
    (apart : ∀ above, above <+: c → x.sameWay above r = false)
    (written : graft? (some t) r v = some t') : x.SharedList t' c := by
  induction c generalizing x t t' r with
  | nil =>
    cases r with
    | nil => cases apart [] List.nil_prefix
    | cons s r =>
      obtain ⟨list, list'⟩ := shared
      obtain ⟨u, -, put⟩ := graft?_cons.mp written
      rw [containerFor_of_kind? list'] at put
      exact ⟨list, (puts_of_index list' (fun _ => indexed [] s r rfl list) put).kind⟩
  | cons s c ih =>
    cases r with
    | nil => cases apart [] List.nil_prefix
    | cons s' r =>
      obtain ⟨kinds, y, z, child, child', below⟩ := shared
      obtain ⟨k, kind⟩ := kind?_of_child? child
      have kind' : t.kind? = some k := kinds.symm.trans kind
      obtain ⟨u, inner, put⟩ := graft?_cons.mp written
      rw [containerFor_of_kind? kind'] at put
      -- `t` shares its kind with `x`, whose path leaves a list by an index
      have puts : Puts k t s' u t' := by
        refine puts_of_index kind' ?_ put
        rintro rfl
        exact indexed [] s' r rfl kind
      have kinds' : x.kind? = t'.kind? := kind.trans puts.kind.symm
      by_cases same : k.SamePlace s s'
      · rw [Option.bind_some, child?_samePlace kind' same, child'] at inner
        refine ⟨kinds', y, u, child, puts.here s same.symm, ih below ?_ ?_ inner⟩
        · exact indexed.below ((child?_samePlace kind same).trans child)
        · intro above before
          have differ := apart (s :: above) (List.cons_prefix_cons.mpr ⟨rfl, before⟩)
          refine Bool.eq_false_iff.mpr fun met => ?_
          rw [sameWay_cons.mpr ⟨k, y, kind, same, child, met⟩] at differ
          cases differ
      · refine ⟨kinds', y, z, child, ?_, below⟩
        rcases puts.elsewhere s fun met => same met.symm with old | ⟨none, -⟩
        · exact old.trans child'
        · rw [child'] at none
          cases none

/-- A stray write makes an object of the list, with what is written and nothing else. -/
theorem graft?_stray (proper : t.Proper) (there : t.kindAt? list = some .list)
    (stray : FieldPath.index? key = none) (v : Json) :
    ∃ t', graft? (some t) (list ++ [key]) v = some t' ∧
      t'.follow? list = some (.obj [(key, v)]) := by
  induction list generalizing t with
  | nil =>
    obtain ⟨xs, rfl⟩ := kind?_eq_list there
    refine ⟨.obj [(key, v)], ?_, rfl⟩
    simp [Json.graft?, containerFor, putChild?, stray]
  | cons s list ih =>
    obtain ⟨y, child, below⟩ := child?_of_kindAt? there
    obtain ⟨u, inner, gone⟩ := ih (proper.child? child) below
    obtain ⟨k, kind⟩ := kind?_of_child? child
    obtain ⟨t', put, puts⟩ := putChild?_puts proper kind kind child u
    refine ⟨t', graft?_cons.mpr ⟨u, ?_, ?_⟩, ?_⟩
    · rw [Option.bind_some, child]
      exact inner
    · rw [containerFor_of_kind? kind]
      exact put
    · rw [follow?, puts.here s (by cases k <;> rfl)]
      exact gone

end Json

/-! ## What is accepted -/

theorem FieldPath.parent?_eq_some {p parent : FieldPath} : p.parent? = some parent ↔
    parent.segments ≠ [] ∧ ∃ s, p.segments = parent.segments ++ [s] := by
  obtain ⟨q⟩ := p
  obtain ⟨list⟩ := parent
  rw [parent?, Option.ite_none_left_eq_some, Option.some.injEq, FieldPath.mk.injEq]
  constructor
  · rintro ⟨long, rfl⟩
    have named : q ≠ [] := by
      rintro rfl
      exact long (Nat.zero_le 1)
    refine ⟨List.ne_nil_of_length_pos ?_, q.getLast named,
      (List.dropLast_concat_getLast named).symm⟩
    rw [List.length_dropLast]
    omega
  · rintro ⟨below, s, rfl⟩
    exact ⟨by simpa using below, List.dropLast_concat⟩

namespace Registry

variable {schema : Json}

theorem isSchema_object (known : isSchema schema = true) : schema.kind? = some .object := by
  cases schema with
  | obj => rfl
  | _ => cases known

/-- A path fits if it is a field, and if it goes into a list by a key. -/
theorem fits_iff (known : isSchema schema = true) (p : FieldPath) :
    fits schema p = true ↔ schema.IsField p.segments ∨ schema.Stray p.segments := by
  rw [Json.IsField, or_assoc, Json.slot_or_stray, fits, known, Bool.not_true, Bool.false_or,
    Bool.or_eq_true]
  refine or_congr Iff.rfl ?_
  constructor
  · intro h
    split at h
    · rename_i parent above
      obtain ⟨-, s, split⟩ := FieldPath.parent?_eq_some.mp above
      obtain ⟨l, there, list⟩ := (Option.any_eq_true _ _).mp h
      refine ⟨parent.segments, s, split, Option.bind_eq_some_iff.mpr ⟨l, there, ?_⟩⟩
      exact Json.isArray_iff.mp list
    · cases h
  · rintro ⟨list, s, split, kind⟩
    have below : list ≠ [] := by
      rintro rfl
      cases (isSchema_object known).symm.trans kind
    have above : p.parent? = some ⟨list⟩ := FieldPath.parent?_eq_some.mpr ⟨below, s, split⟩
    obtain ⟨l, there, kind⟩ := Option.bind_eq_some_iff.mp kind
    rw [above]
    exact (Option.any_eq_true _ _).mpr ⟨l, there, Json.isArray_iff.mpr kind⟩

end Registry

open Json

/-- Fields are accepted, and other paths refused, but for stray ones. A change in a field keeps the
lists of the schema that it does not take the place of, and a stray change puts an object in the
place of its list. -/
theorem fields_accepted {ℓ η : Type} (r : Registry ℓ η) (p : FieldPath) (new : Field ℓ η)
    {schema : Json} (known : Registry.isSchema schema = true) :
    ((∃ r', r.register p new schema = .ok r') ↔
      schema.IsField p.segments ∨ schema.Stray p.segments) ∧
    ((¬ ∃ r', r.register p new schema = .ok r') →
      r.register p new schema = .error (.unknownField p.display)) ∧
    (schema.IsField p.segments → ∀ (s : Scene) (now : Nat) (v : Json) (c : List String),
      schema.SharedList s.form.store.values c →
      (∀ above, above <+: c → schema.sameWay above p.segments = false) →
      schema.SharedList (s.handle now (.fieldChanged p v)).land.form.store.values c) ∧
    ∀ list key, p.segments = list ++ [key] → FieldPath.index? key = none →
      ∀ (s : Scene) (now : Nat) (v : Json), s.form.store.values.Proper →
      schema.SharedList s.form.store.values list →
      (s.handle now (.fieldChanged p v)).land.form.store.values.follow? list =
        some (.obj [(key, v)]) := by
  have object {t : Json} {c : List String} (shared : schema.SharedList t c) :
      t.kind? = some .object := shared.kind?.symm.trans (Registry.isSchema_object known)
  refine ⟨?_, ?_, ?_, ?_⟩
  · rw [← Registry.fits_iff known]
    unfold Registry.register
    cases Registry.fits schema p <;> simp
  · intro refused
    unfold Registry.register at refused ⊢
    split
    · rename_i fits
      exact absurd ⟨_, if_pos fits⟩ refused
    · rfl
  · intro field s now v c shared apart
    have named : p.segments ≠ [] := by
      intro top
      have differ := apart [] List.nil_prefix
      rw [top] at differ
      cases differ
    rw [Scene.handle_store, Form.storeAfter, Store.set?, set?_eq_graft? (object shared) named]
    cases written : graft? (some s.form.store.values) p.segments v with
    | none =>
      -- the form falls, and its values stay
      exact shared
    | some t' => exact shared.graft? field.indexed apart written
  · intro list key split stray s now v proper shared
    have named : p.segments ≠ [] := by simp [split]
    obtain ⟨t', written, gone⟩ := graft?_stray proper shared.kindAt? stray v
    rw [Scene.handle_store, Form.storeAfter, Store.set?, set?_eq_graft? (object shared) named,
      split, written]
    exact gone

/-- A form with one list in it, as it begins. -/
def Scene.clustered : Scene where
  form := .make (.sample ⟨false, none⟩ (.obj [("clusters", .arr [.obj [("name", .str "a")]])])) 0
  guard := .new

/-- A new slot of the list is a field, and a change in it keeps the list. -/
theorem fields_accepted_slot :
    Registry.isSchema Scene.clustered.form.store.baseline = true ∧
    (∃ r', Scene.clustered.form.registry.register ⟨["clusters", "1"]⟩ ⟨none, [], none⟩
      Scene.clustered.form.store.baseline = .ok r') ∧
    Scene.clustered.form.store.baseline.SharedList
      (Scene.clustered.handle 0 (.fieldChanged ⟨["clusters", "1"]⟩ (.int 1))).land.form.store.values
      ["clusters"] := by
  have known : Registry.isSchema Scene.clustered.form.store.baseline = true := rfl
  obtain ⟨accepted, -, keeps, -⟩ := fields_accepted Scene.clustered.form.registry
    ⟨["clusters", "1"]⟩ ⟨none, [], none⟩ known
  have slot : Scene.clustered.form.store.baseline.IsField ["clusters", "1"] :=
    .inr ⟨["clusters"], "1", rfl, rfl, by decide⟩
  refine ⟨known, accepted.mpr (.inl slot), keeps slot _ _ _ _ (.self rfl) ?_⟩
  intro above before
  rcases List.prefix_cons_iff.mp before with rfl | ⟨rest, rfl, last⟩
  · rfl
  · obtain rfl := List.prefix_nil.mp last
    decide

/-- A key of the list is accepted although it is no field, and a change there leaves no list. -/
theorem stray_accepted :
    (∃ r', Scene.clustered.form.registry.register ⟨["clusters", "name"]⟩ ⟨none, [], none⟩
      Scene.clustered.form.store.baseline = .ok r') ∧
    ¬ Scene.clustered.form.store.baseline.IsField ["clusters", "name"] ∧
    (Scene.clustered.handle 0 (.fieldChanged ⟨["clusters", "name"]⟩
      (.str "b"))).land.form.store.values.kindAt? ["clusters"] = some .object := by
  refine ⟨⟨_, rfl⟩, ?_, rfl⟩
  rintro (there | ⟨list, s, split, kind, index⟩)
  · cases there
  · have split : ["clusters"] ++ ["name"] = list ++ [s] := split
    obtain ⟨rfl, last⟩ := List.append_inj' split rfl
    cases last
    cases index

end LiveForm
