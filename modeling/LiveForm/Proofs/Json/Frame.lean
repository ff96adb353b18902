import LiveForm.Proofs.Json.Replay

/-!
# What a write leaves alone

* `Json.sameWay t q r`: in `t`, the paths `q` and `r` lead through the same places;
* `Json.parts t q r`: in `t`, the paths `q` and `r` part in a container that a write at `r` keeps;
* `Json.graft?_parts`: then the write leaves what is at `q`, and the paths that part from `q` still
  do;
* `Store.commit?_parts`: so it is for all the edits that are put onto a new baseline.
-/

set_option autoImplicit false

namespace LiveForm

namespace Json

theorem follow?_append (t : Json) (p q : List String) :
    t.follow? (p ++ q) = (t.follow? p).bind fun c => c.follow? q := by
  induction p generalizing t with
  | nil => rfl
  | cons s p ih =>
    rw [List.cons_append, follow?, follow?, Option.bind_assoc]
    exact Option.bind_congr fun c _ => ih c

instance (k : Kind) (s s' : String) : Decidable (k.SamePlace s s') :=
  match k with
  | .object => inferInstanceAs (Decidable (s = s'))
  | .list => inferInstanceAs (Decidable (FieldPath.index? s = FieldPath.index? s'))

/-- The paths go through the same places: through the same keys of objects, and in lists through the
same indices, which they may spell in different ways. -/
def sameWay (t : Json) : List String → List String → Bool
  | [], [] => true
  | s :: q, s' :: r =>
    match t.kind? with
    | some k => if k.SamePlace s s' then (t.child? s).any fun c => c.sameWay q r else false
    | none => false
  | _, _ => false

theorem sameWay_cons {t : Json} {s s' : String} {q r : List String} :
    sameWay t (s :: q) (s' :: r) = true ↔ ∃ k c, t.kind? = some k ∧ k.SamePlace s s' ∧
      t.child? s = some c ∧ sameWay c q r = true := by
  cases kind : t.kind? with
  | none => simp [sameWay, kind]
  | some k =>
    by_cases same : k.SamePlace s s' <;> simp [sameWay, kind, same, Option.any_eq_true]

theorem sameWay_self {t v : Json} {q : List String} (live : t.follow? q = some v) :
    sameWay t q q = true := by
  induction q generalizing t with
  | nil => rfl
  | cons s q ih =>
    obtain ⟨c, child, onward⟩ := Option.bind_eq_some_iff.mp live
    obtain ⟨k, kind⟩ := kind?_of_child? child
    exact sameWay_cons.mpr ⟨k, c, kind, by cases k <;> rfl, child, ih onward⟩

/-- The paths go through one place after another, and then into two places of one container. If this
is a list, both have an index there, so that it stays a list. -/
def parts (t : Json) : List String → List String → Bool
  | s :: q, s' :: r =>
    match t.kind? with
    | some k =>
      if k.SamePlace s s' then (t.child? s).any fun c => parts c q r
      else k = .object || (FieldPath.index? s').isSome
    | none => false
  | _, _ => false

theorem parts_cons {t : Json} {s s' : String} {q r : List String} :
    parts t (s :: q) (s' :: r) = true ↔ ∃ k, t.kind? = some k ∧
      (k.SamePlace s s' ∧ (∃ c, t.child? s = some c ∧ parts c q r = true) ∨
        ¬ k.SamePlace s s' ∧ (k = .object ∨ (FieldPath.index? s').isSome)) := by
  cases kind : t.kind? with
  | none => simp [parts, kind]
  | some k =>
    by_cases same : k.SamePlace s s' <;> simp [parts, kind, same, Option.any_eq_true]

/-- A container that a path goes through which parts from that of the write keeps its kind. -/
theorem puts_of_parts {t t' u : Json} {k : Kind} {s s' : String} {q r : List String}
    (kind : t.kind? = some k) (apart : parts t (s :: q) (s' :: r) = true)
    (put : t.putChild? s' u = some t') : Puts k t s' u t' := by
  refine puts_of_index kind ?_ put
  rintro rfl
  obtain ⟨k, kind', place⟩ := parts_cons.mp apart
  obtain rfl : .list = k := Option.some.inj (kind.symm.trans kind')
  rcases place with ⟨same, c, child, -⟩ | ⟨-, object | index⟩
  · rw [← show FieldPath.index? s = FieldPath.index? s' from same]
    exact index?_of_list kind child
  · cases object
  · exact index

theorem Left.trans {a b c : Option Json} (h : Left a b) (h' : Left b c) : Left a c := by
  rcases h with rfl | ⟨rfl, rfl⟩
  · exact h'
  · rcases h' with rfl | ⟨none, -⟩
    · exact .inr ⟨rfl, rfl⟩
    · cases none

/-- A place that was filled up has nothing below it. -/
theorem Left.follow? {a b : Option Json} (h : Left a b) (q : List String) :
    Left (a.bind fun t => t.follow? q) (b.bind fun t => t.follow? q) := by
  rcases h with rfl | ⟨rfl, rfl⟩
  · exact .inl rfl
  · cases q with
    | nil => exact .inr ⟨rfl, rfl⟩
    | cons s q => exact .inl rfl

/-- A write leaves what is at a path that parts from its own. -/
theorem graft?_parts {t t' v : Json} {q r : List String} (apart : parts t q r = true)
    (written : graft? (some t) r v = some t') :
    Left (t.follow? q) (t'.follow? q) ∧ ∀ r', parts t q r' = true → parts t' q r' = true := by
  induction q generalizing t r t' with
  | nil => cases apart
  | cons s q ih =>
    cases r with
    | nil => cases apart
    | cons s' r =>
      obtain ⟨k, kind, place⟩ := parts_cons.mp apart
      obtain ⟨u, inner, put⟩ := graft?_cons.mp written
      rw [containerFor_of_kind? kind] at put
      have puts := puts_of_parts kind apart put
      -- the place of `s`, which the write goes through or passes by
      have there : Left ((t.child? s).bind fun c => c.follow? q)
            ((t'.child? s).bind fun c => c.follow? q) ∧
          ∀ c r', t.child? s = some c → parts c q r' = true →
            ∃ c', t'.child? s = some c' ∧ parts c' q r' = true := by
        rcases place with ⟨same, c, child, below⟩ | ⟨other, -⟩
        · rw [Option.bind_some, child?_samePlace kind same, child] at inner
          obtain ⟨left, still⟩ := ih below inner
          rw [child, puts.here s same.symm]
          exact ⟨left, fun c' r' found apart => ⟨u, rfl, still r' (Option.some.inj found ▸ apart)⟩⟩
        · have passed := puts.elsewhere s fun same => other same.symm
          refine ⟨Left.follow? passed q, fun c r' child apart => ?_⟩
          rcases passed with old | ⟨none, -⟩
          · exact ⟨c, old.trans child, apart⟩
          · rw [child] at none
            cases none
      refine ⟨there.1, ?_⟩
      intro r'
      cases r' with
      | nil => exact nofun
      | cons s'' r' =>
        intro apart'
        obtain ⟨k', kind', place'⟩ := parts_cons.mp apart'
        obtain rfl : k = k' := Option.some.inj (kind.symm.trans kind')
        refine parts_cons.mpr ⟨k, puts.kind, place'.imp_left (And.imp_right ?_)⟩
        rintro ⟨c, child, below⟩
        exact there.2 c r' child below

end Json

open Json

namespace Store

variable {edits : List (FieldPath × Json)} {q : List String}

theorem writeAll?_parts {t t' : Json} (object : t.kind? = some .object)
    (each : ∀ e ∈ edits, e.1.segments ≠ [] ∧ parts t q e.1.segments = true)
    (written : writeAll? t edits = some t') : Left (t.follow? q) (t'.follow? q) := by
  induction edits generalizing t with
  | nil =>
    cases written
    exact .inl rfl
  | cons e rest ih =>
    obtain ⟨u, first, others⟩ := Option.bind_eq_some_iff.mp written
    obtain ⟨⟨named, apart⟩, each⟩ := List.forall_mem_cons.mp each
    obtain ⟨left, still⟩ := graft?_parts apart ((set?_eq_graft? object named e.2).symm.trans first)
    refine left.trans (ih (write?_object object first) ?_ others)
    exact fun e inside => (each e inside).imp_right (still _)

theorem commit?_parts {base : Json} {store : Store} (committed : commit? base edits = some store)
    (each : ∀ e ∈ edits, e.1.segments ≠ [] ∧ parts (rooted base) q e.1.segments = true) :
    Left ((rooted base).follow? q) (store.values.follow? q) := by
  obtain ⟨merged, written, rfl⟩ := Option.map_eq_some_iff.mp committed
  exact writeAll?_parts (rooted_object base) each written

end Store

end LiveForm
