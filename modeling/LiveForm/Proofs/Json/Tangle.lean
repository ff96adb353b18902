import LiveForm.Proofs.Json.Replay

/-!
# Edits that get in each other's way

Values that were edited at some paths are written onto others, whatever these look like. Where
there is no object yet, a key that reads as an index asks for a list and any other key for an
object, so one of two keys of an edited object can push the other out.

* `Json.tangled l o p q`: on the way of both paths an object of `l` meets something else in `o`, and
  has different keys there that do not go together;
* `Json.graft?_clear`: a write keeps what is in place at a path it is not tangled with, and makes no
  tangle;
* `Store.writeAll?_keeps`: so a path that is tangled with no other ends up as in `l`;
* `Store.commit?_untangled`: what a store keeps when edits of any shape go onto a new baseline.
-/

set_option autoImplicit false

namespace LiveForm

namespace Json

def IsObject (o : Option Json) : Prop := o.bind kind? = some .object

instance (o : Option Json) : Decidable (IsObject o) :=
  inferInstanceAs (Decidable (o.bind kind? = some .object))

/-- Two children of `l` come to one place in `o`. In a list that stays a list these are all that
name one index. -/
def Meets (l : Json) (o : Option Json) (s s' : String) : Prop :=
  s = s' ∨ l.kind? = some .list ∧ ¬ IsObject o ∧ FieldPath.index? s = FieldPath.index? s'

instance (l : Json) (o : Option Json) (s s' : String) : Decidable (Meets l o s s') :=
  inferInstanceAs (Decidable (_ ∨ _))

/-- No list has both keys in places of their own, and no new object is made for both: one of them
reads as an index and the other does not, or both name one index. -/
def AtOdds (s s' : String) : Prop :=
  (FieldPath.index? s).isSome ≠ (FieldPath.index? s').isSome ∨
    (FieldPath.index? s).isSome ∧ FieldPath.index? s = FieldPath.index? s'

instance (s s' : String) : Decidable (AtOdds s s') := inferInstanceAs (Decidable (_ ∨ _))

/-- Two keys of an object in `l` are at odds, and in `o` there is no object to hold them. -/
def Clash (l : Json) (o : Option Json) (s s' : String) : Prop :=
  l.kind? = some .object ∧ ¬ IsObject o ∧ s ≠ s' ∧ AtOdds s s'

instance (l : Json) (o : Option Json) (s s' : String) : Decidable (Clash l o s s') :=
  inferInstanceAs (Decidable (_ ∧ _))

/-- The paths clash in a container that both go through. -/
def tangled (l : Json) (o : Option Json) : List String → List String → Bool
  | s :: p, s' :: q =>
    decide (Clash l o s s') ||
      decide (Meets l o s s') && (l.child? s).any fun c =>
        tangled c (o.bind fun t => t.child? s) p q
  | _, _ => false

theorem tangled_cons {l c : Json} {o : Option Json} {s s' : String} {p q : List String}
    (child : l.child? s = some c) : tangled l o (s :: p) (s' :: q) = false ↔
      ¬ Clash l o s s' ∧ (Meets l o s s' → tangled c (o.bind fun t => t.child? s) p q = false) := by
  simp [tangled, child]

theorem tangled_null (l : Json) (p q : List String) :
    tangled l (some .null) p q = tangled l none p q := by
  cases p <;> cases q <;> rfl

/-- No path is in its own way. -/
theorem tangled_refl (l : Json) (o : Option Json) (p : List String) : tangled l o p p = false := by
  induction p generalizing l o with
  | nil => rfl
  | cons s p ih => simp [tangled, Clash, ih]

/-- Where the values are the edited ones, nothing is in the way. -/
theorem tangled_self {l v : Json} {p : List String} (live : l.follow? p = some v)
    (q : List String) : tangled l (some l) p q = false := by
  induction p generalizing l q with
  | nil => rfl
  | cons s p ih =>
    cases q with
    | nil => rfl
    | cons s' q =>
      obtain ⟨c, child, live⟩ := Option.bind_eq_some_iff.mp live
      refine (tangled_cons child).mpr ⟨?_, ?_⟩
      · rintro ⟨object, other, -⟩
        exact other object
      · intro _
        rw [Option.bind_some, child]
        exact ih live q

/-! ## One container -/

theorem containerFor_object {o : Option Json} (object : IsObject o) (s : String) :
    (containerFor s o).kind? = some .object := by
  obtain ⟨t, rfl, kind⟩ := Option.bind_eq_some_iff.mp object
  rw [containerFor_of_kind? kind]
  exact kind

theorem containerFor_list {o : Option Json} {s : String} (other : ¬ IsObject o)
    (index : (FieldPath.index? s).isSome) : (containerFor s o).kind? = some .list := by
  rcases containerFor_cases o with fresh | ⟨t, k, rfl, kind, there⟩
  · rw [containerFor_fresh fresh, if_pos index]
    rfl
  · rw [there, kind]
    cases k with
    | object => exact absurd kind other
    | list => rfl

section

variable {l c c' v t' : Json} {o : Option Json} {s s' : String}

theorem IsObject.put (object : IsObject o) (put : (containerFor s o).putChild? s v = some t') :
    IsObject (some t') :=
  (puts_of_index (containerFor_object object s) nofun put).kind

/-- Children that meet are one child already. -/
theorem Meets.child? (meets : Meets l o s s') :
    l.child? s' = l.child? s ∧ (o.bind fun t => t.child? s') = o.bind fun t => t.child? s := by
  rcases meets with rfl | ⟨list, other, same⟩
  · exact ⟨rfl, rfl⟩
  · refine ⟨child?_samePlace list same, ?_⟩
    rcases containerFor_cases o with fresh | ⟨t, k, rfl, kind, -⟩
    · rw [← containerFor_child? s s' o, ← containerFor_child? s s o]
      rw [containerFor_fresh_child fresh, containerFor_fresh_child fresh]
    · cases k with
      | object => exact absurd kind other
      | list => exact child?_samePlace kind same

theorem Meets.put (meets : Meets l o s s') (child : l.child? s = some c)
    (put : (containerFor s' o).putChild? s' v = some t') : t'.child? s = some v := by
  rcases meets with rfl | ⟨list, other, same⟩
  · obtain ⟨k, kind⟩ := containerFor_kind s o
    exact putChild?_here kind put
  · have index : (FieldPath.index? s').isSome := same ▸ index?_of_list list child
    exact (puts_of_index (containerFor_list other index) (fun _ => index) put).here s same.symm

/-- A write beside a child, and at odds with it in no way, leaves it alone. -/
theorem putChild?_beside (child : l.child? s = some c) (child' : l.child? s' = some c')
    (apart : ¬ Meets l o s s') (clear : ¬ Clash l o s s')
    (put : (containerFor s' o).putChild? s' v = some t') :
    Left (o.bind fun t => t.child? s) (t'.child? s) := by
  have differ : s ≠ s' := fun same => apart (.inl same)
  rw [← containerFor_child? s' s o]
  obtain ⟨k, kind⟩ := containerFor_kind s' o
  have other (list : k = .list) : ¬ IsObject o := by
    intro object
    rw [containerFor_object object, list] at kind
    cases kind
  rcases putChild?_cases kind put with ⟨puts, index⟩ | ⟨rfl, none, rfl⟩
  · refine puts.elsewhere s fun same => ?_
    cases k with
    | object => exact differ same.symm
    | list =>
      obtain ⟨k', live⟩ := kind?_of_child? child
      cases k' with
      | object => exact clear ⟨live, other rfl, differ, .inr ⟨same ▸ index rfl, same.symm⟩⟩
      | list => exact apart (.inr ⟨live, other rfl, same.symm⟩)
  · obtain ⟨k', live⟩ := kind?_of_child? child
    cases k' with
    | list =>
      have index := index?_of_list live child'
      simp [none] at index
    | object =>
      have key : FieldPath.index? s = Option.none := by
        have even := fun odd => clear ⟨live, other rfl, differ, .inl odd⟩
        simpa [none] using even
      obtain ⟨xs, list⟩ := kind?_eq_list kind
      refine .inl ?_
      rw [list]
      simp [child?, key, Assoc.find?, differ.symm]

end

/-! ## Writes -/

/-- A write of what `l` has at a path keeps what is in place at the paths it is not tangled with,
and brings about no tangle. -/
theorem graft?_clear {l w x : Json} {o : Option Json} {p r : List String} {t' : Json}
    (proper : l.Proper) (live : l.follow? p = some x) (other : l.follow? r = some w)
    (clear : tangled l o p r = false) (written : graft? o r w = some t') :
    (reach? o p = some x → t'.follow? p = some x) ∧
      ∀ q, tangled l o p q = false → tangled l (some t') p q = false := by
  induction p generalizing l o r t' with
  | nil =>
    refine ⟨?_, fun _ _ => rfl⟩
    intro there
    obtain rfl : l = x := Option.some.inj live
    obtain rfl : o = some l := by simpa [reach?, follow?] using there
    rw [graft?_found proper other] at written
    exact written.symm
  | cons s p ih =>
    cases r with
    | nil =>
      obtain rfl : l = w := Option.some.inj other
      obtain rfl : l = t' := Option.some.inj written
      exact ⟨fun _ => live, fun q _ => tangled_self live q⟩
    | cons s' r =>
      obtain ⟨c, child, below⟩ := Option.bind_eq_some_iff.mp live
      obtain ⟨c', child', otherBelow⟩ := Option.bind_eq_some_iff.mp other
      obtain ⟨u, inner, put⟩ := graft?_cons.mp written
      obtain ⟨noClash, clearBelow⟩ := (tangled_cons child).mp clear
      -- the place of `s` afterwards, as far as the rest of the path can tell
      have place : (reach? (o.bind fun t => t.child? s) p = some x →
            reach? (t'.child? s) p = some x) ∧
          ∀ q, tangled c (o.bind fun t => t.child? s) p q = false →
            tangled c (t'.child? s) p q = false := by
        by_cases meets : Meets l o s s'
        · obtain ⟨same, same'⟩ := meets.child?
          obtain rfl : c = c' := Option.some.inj (child.symm.trans (same.symm.trans child'))
          rw [same'] at inner
          rw [meets.put child put]
          exact ih (proper.child? child) below otherBelow (clearBelow meets) inner
        · rcases putChild?_beside child child' meets noClash put with old | ⟨none, null⟩
          · rw [old]
            exact ⟨id, fun _ => id⟩
          · rw [none, null]
            refine ⟨by rintro ⟨⟩, fun q => ?_⟩
            rw [tangled_null]
            exact id
      refine ⟨?_, ?_⟩
      · rw [reach?_child]
        exact place.1
      · intro q
        cases q with
        | nil => exact fun _ => rfl
        | cons s'' q =>
          have before (other : ¬ IsObject (some t')) : ¬ IsObject o := fun object =>
            other (object.put put)
          rw [tangled_cons child, tangled_cons child]
          rintro ⟨noClash', clear'⟩
          refine ⟨?_, ?_⟩
          · rintro ⟨object, other, differ, odd⟩
            exact noClash' ⟨object, before other, differ, odd⟩
          · intro meets
            exact place.2 q (clear' (meets.imp_right (And.imp_right (And.imp_left before))))

/-- A write has a result unless it asks a list to hold the last index. -/
theorem graft?_isSome {o : Option Json} {r : List String} (v : Json)
    (room : ∀ s ∈ r, FieldPath.index? s ≠ some FieldPath.lastIndex) :
    ∃ t', graft? o r v = some t' := by
  induction r generalizing o with
  | nil => exact ⟨v, rfl⟩
  | cons s r ih =>
    obtain ⟨here, below⟩ := List.forall_mem_cons.mp room
    obtain ⟨u, written⟩ := ih below
    have put : ∃ t', (containerFor s o).putChild? s u = some t' := by
      unfold putChild?
      split
      · rename_i i index
        rw [if_neg fun last => here (index.trans (congrArg some last))]
        exact ⟨_, rfl⟩
      · exact ⟨_, rfl⟩
      · exact ⟨_, rfl⟩
    obtain ⟨t', put⟩ := put
    exact ⟨t', graft?_cons.mpr ⟨u, written, put⟩⟩

end Json

open Json

namespace Store

variable {l t : Json} {edits : List (FieldPath × Json)}

theorem writeAll?_isSome (object : t.kind? = some .object)
    (each : ∀ e ∈ edits, e.1.segments ≠ [] ∧
      ∀ s ∈ e.1.segments, FieldPath.index? s ≠ some FieldPath.lastIndex) :
    ∃ t', writeAll? t edits = some t' := by
  induction edits generalizing t with
  | nil => exact ⟨t, rfl⟩
  | cons e rest ih =>
    obtain ⟨⟨named, room⟩, others⟩ := List.forall_mem_cons.mp each
    obtain ⟨u, written⟩ := graft?_isSome (o := some t) e.2 room
    rw [← set?_eq_graft? object named] at written
    obtain ⟨t', last⟩ := ih (write?_object object written) others
    exact ⟨t', Option.bind_eq_some_iff.mpr ⟨u, written, last⟩⟩

/-- When all is written, a path that is tangled with no other is as in `l` if it was so before or is
one of those written. -/
theorem writeAll?_keeps {t' v : Json} {p : List String} (proper : l.Proper)
    (object : t.kind? = some .object) (live : l.follow? p = some v)
    (each : ∀ e ∈ edits, e.1.segments ≠ [] ∧ l.get? e.1 = some e.2)
    (clear : ∀ e ∈ edits, e.1.segments ≠ p → tangled l (some t) p e.1.segments = false)
    (written : writeAll? t edits = some t')
    (there : t.follow? p = some v ∨ ∃ e ∈ edits, e.1.segments = p) : t'.follow? p = some v := by
  induction edits generalizing t with
  | nil =>
    cases written
    simpa using there
  | cons e rest ih =>
    obtain ⟨u, first, others⟩ := Option.bind_eq_some_iff.mp written
    obtain ⟨⟨named, found⟩, each⟩ := List.forall_mem_cons.mp each
    obtain ⟨apart, clear⟩ := List.forall_mem_cons.mp clear
    have graft := (set?_eq_graft? object named e.2).symm.trans first
    have apart : tangled l (some t) p e.1.segments = false := by
      by_cases same : e.1.segments = p
      · rw [same]
        exact tangled_refl _ _ _
      · exact apart same
    obtain ⟨keeps, untangled⟩ := graft?_clear proper live found apart graft
    refine ih (write?_object object first) each ?_ others ?_
    · exact fun e inside other => untangled _ (clear e inside other)
    rcases there with before | ⟨e', inside, same⟩
    · exact .inl (keeps before)
    · rcases List.mem_cons.mp inside with rfl | inside
      · subst same
        exact .inl ((graft?_here graft).trans (found.symm.trans live))
      · exact .inr ⟨e', inside, same⟩

/-- Edits taken from proper values can be put onto any baseline, if none of them names the last
index. Those that are tangled with no other survive. -/
theorem commit?_untangled (base : Json) (edits : List (FieldPath × Json)) (proper : l.Proper)
    (each : ∀ e ∈ edits, e.1.segments ≠ [] ∧ l.get? e.1 = some e.2 ∧
      ∀ s ∈ e.1.segments, FieldPath.index? s ≠ some FieldPath.lastIndex) :
    ∃ store, commit? base edits = some store ∧ store.baseline = rooted base ∧
      ∀ e ∈ edits, (∀ e' ∈ edits, e'.1 ≠ e.1 →
        tangled l (some (rooted base)) e.1.segments e'.1.segments = false) →
          store.get? e.1 = some e.2 := by
  have object := rooted_object base
  obtain ⟨merged, written⟩ := writeAll?_isSome object fun e inside =>
    ⟨(each e inside).1, (each e inside).2.2⟩
  refine ⟨⟨merged, rooted base, .diff merged (rooted base)⟩, ?_, rfl, ?_⟩
  · rw [commit?, written]
    rfl
  · intro e inside clear
    refine writeAll?_keeps proper object (each e inside).2.1 ?_ ?_ written (.inr ⟨e, inside, rfl⟩)
    · exact fun e' inside' => ⟨(each e' inside').1, (each e' inside').2.1⟩
    · exact fun e' inside' other => clear e' inside' fun same => other (congrArg _ same)

end Store

end LiveForm
