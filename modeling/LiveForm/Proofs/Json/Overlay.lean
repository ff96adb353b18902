import Mathlib.Data.List.Sort
import LiveForm.Proofs.Json.Tangle
import LiveForm.Proofs.Proper

/-!
# Writing edits again onto what was edited

Values are edited one write after another, under paths of keys. Whoever kept the values from before,
and knows the paths, gets the same values by writing what now stands there, each path once, in any
order.

* `Json.plant`: a write under a path of keys, which always has a result;
* `Json.held?_plantAll`: writes under one key do not touch another;
* `Json.plantAll_picks`: what stands at the edited paths makes up for all edits;
* `Store.writeAll?_overlay`: the same of a store.
-/

set_option autoImplicit false

namespace LiveForm

/-- A path with segments, none of which names a place in a list. -/
structure FieldPath.Keyed (p : FieldPath) : Prop where
  named : p.segments ≠ []
  keys : ∀ s ∈ p.segments, FieldPath.index? s = none

namespace Json

variable {o : Option Json} {s k : String} {q : List String} {v w : Json}

/-! ## Keys -/

def membersOf : Option Json → List (String × Json)
  | some (.obj ms) => ms
  | _ => []

/-- What stands under a key. -/
def held? (o : Option Json) (s : String) : Option Json := Assoc.find? s (membersOf o)

theorem child?_key (key : FieldPath.index? s = none) :
    (o.bind fun t => t.child? s) = held? o s := by
  cases o with
  | none => rfl
  | some t => cases t <;> simp [child?, key, held?, membersOf]

theorem putChild?_key (key : FieldPath.index? s = none) :
    (containerFor s o).putChild? s v = some (.obj (Assoc.insert s v (membersOf o))) := by
  cases o with
  | none => simp [containerFor, key, putChild?, emptyObject, membersOf]
  | some t => cases t <;> simp [containerFor, key, putChild?, emptyObject, membersOf, Assoc.insert]

theorem reach?_key (key : FieldPath.index? s = none) :
    reach? o (s :: q) = reach? (held? o s) q := by
  rw [reach?_child, child?_key key]

/-- Two objects with the same entries are one. -/
theorem object_ext {t t' : Json} (h : t.Document) (h' : t'.Document)
    (same : ∀ k, held? (some t) k = held? (some t') k) : t = t' := by
  obtain ⟨ms, rfl⟩ := kind?_eq_object h.object
  obtain ⟨ms', rfl⟩ := kind?_eq_object h'.object
  cases h.proper with
  | obj sorted _ =>
    cases h'.proper with
    | obj sorted' _ => rw [sorted.ext sorted' same]

/-! ## Writes -/

/-- Writes under a path of keys. What is no object gives way to one. -/
def plant (o : Option Json) : List String → Json → Json
  | [], v => v
  | s :: q, v => .obj (Assoc.insert s (plant (held? o s) q v) (membersOf o))

theorem graft?_keyed (keys : ∀ s ∈ q, FieldPath.index? s = none) :
    graft? o q v = some (plant o q v) := by
  induction q generalizing o with
  | nil => rfl
  | cons s q ih =>
    obtain ⟨key, keys⟩ := List.forall_mem_cons.mp keys
    refine graft?_cons.mpr ⟨plant (held? o s) q v, ?_, putChild?_key key⟩
    rw [child?_key key]
    exact ih keys

theorem set?_keyed {t : Json} {p : FieldPath} (object : t.kind? = some .object) (keyed : p.Keyed)
    (v : Json) : t.set? p v = some (plant (some t) p.segments v) :=
  (set?_eq_graft? object keyed.named v).trans (graft?_keyed keyed.keys)

theorem held?_plant :
    held? (some (plant o (s :: q) v)) k =
      if s = k then some (plant (held? o s) q v) else held? o k := by
  show Assoc.find? k (Assoc.insert s _ (membersOf o)) = _
  split
  · rename_i same
    rw [← same, Assoc.find?_insert_self]
  · rename_i other
    rw [Assoc.find?_insert_ne other]
    rfl

theorem reach?_plant (keys : ∀ s ∈ q, FieldPath.index? s = none) :
    reach? (some (plant o q v)) q = some v := by
  have written := graft?_keyed (o := o) (v := v) keys
  exact graft?_here written

/-- To write what is there changes nothing. -/
theorem plant_found (proper : v.Proper) (keys : ∀ s ∈ q, FieldPath.index? s = none)
    (found : v.follow? q = some w) : plant (some v) q w = v := by
  have same := graft?_found proper found
  rw [graft?_keyed keys] at same
  exact Option.some.inj same

theorem ProperIn.members (h : ProperIn o) :
    Assoc.Sorted (membersOf o) ∧ ∀ e ∈ membersOf o, e.2.Proper := by
  unfold membersOf
  split
  · rename_i ms
    cases h _ rfl with
    | obj sorted members => exact ⟨sorted, members⟩
  · exact ⟨.nil, by simp⟩

theorem ProperIn.held (h : ProperIn o) (s : String) : ProperIn (held? o s) :=
  fun _ found => h.members.2 _ (Assoc.mem_of_find? found)

theorem plant_proper (h : ProperIn o) (value : v.Proper) (q : List String) :
    (plant o q v).Proper := by
  induction q generalizing o with
  | nil => exact value
  | cons s q ih =>
    obtain ⟨sorted, members⟩ := h.members
    refine .obj sorted.insert fun e inside => ?_
    rcases Assoc.mem_insert inside with rfl | old
    · exact ih (h.held s)
    · exact members e old

/-! ## One write after another -/

abbrev Edits := List (List String × Json)

/-- Edits under paths of keys, with proper values. -/
def Edits.Plain (edits : Edits) : Prop :=
  ∀ e ∈ edits, (∀ s ∈ e.1, FieldPath.index? s = none) ∧ e.2.Proper

def plantAll (o : Option Json) (edits : Edits) : Option Json :=
  edits.foldl (fun o e => some (plant o e.1 e.2)) o

variable {edits : Edits}

theorem Edits.exists_longer (edits : Edits) : ∃ n, ∀ e ∈ edits, e.1.length < n := by
  induction edits with
  | nil => exact ⟨0, by simp⟩
  | cons e rest ih =>
    obtain ⟨n, longer⟩ := ih
    refine ⟨max n (e.1.length + 1), List.forall_mem_cons.mpr ⟨by omega, fun e inside => ?_⟩⟩
    have := longer e inside
    omega

theorem plantAll_concat (o : Option Json) (edits : Edits) (q : List String) (v : Json) :
    plantAll o (edits ++ [(q, v)]) = some (plant (plantAll o edits) q v) := by
  simp [plantAll]

theorem plantAll_proper (h : ProperIn o) (plain : edits.Plain) : ProperIn (plantAll o edits) := by
  induction edits generalizing o with
  | nil => exact h
  | cons e rest ih =>
    obtain ⟨⟨-, value⟩, plain⟩ := List.forall_mem_cons.mp plain
    refine ih ?_ plain
    rintro t ⟨⟩
    exact plant_proper h value e.1

/-- What a path comes to behind a key. -/
def tail? (k : String) : List String → Option (List String)
  | s :: q => if s = k then some q else none
  | [] => none

theorem tail?_eq_some {r : List String} : tail? k q = some r ↔ q = k :: r := by
  cases q with
  | nil => simp [tail?]
  | cons s q => simp [tail?]

def under? (k : String) (e : List String × Json) : Option (List String × Json) :=
  (tail? k e.1).map (·, e.2)

/-- Under a key stands what the writes under that key make of it. -/
theorem held?_plantAll (named : ∀ e ∈ edits, e.1 ≠ []) (k : String) :
    held? (plantAll o edits) k = plantAll (held? o k) (edits.filterMap (under? k)) := by
  induction edits generalizing o with
  | nil => rfl
  | cons e rest ih =>
    obtain ⟨here, others⟩ := List.forall_mem_cons.mp named
    obtain ⟨q, v⟩ := e
    obtain ⟨s, q, rfl⟩ := List.exists_cons_of_ne_nil here
    have first : plantAll o ((s :: q, v) :: rest) = plantAll (some (plant o (s :: q) v)) rest := rfl
    rw [first, ih others, held?_plant]
    by_cases same : s = k
    · subst same
      simp [under?, tail?, plantAll]
    · simp [under?, tail?, same]

theorem mem_tails {paths : List (List String)} :
    q ∈ paths.filterMap (tail? k) ↔ k :: q ∈ paths := by
  simp [List.mem_filterMap, tail?_eq_some]

theorem mem_under : (q, v) ∈ edits.filterMap (under? k) ↔ (k :: q, v) ∈ edits := by
  simp [List.mem_filterMap, under?, tail?_eq_some]

theorem Edits.Plain.under (plain : edits.Plain) (k : String) :
    Edits.Plain (edits.filterMap (under? k)) := by
  rintro ⟨q, v⟩ inside
  obtain ⟨keys, value⟩ := plain _ (mem_under.mp inside)
  exact ⟨(List.forall_mem_cons.mp keys).2, value⟩

theorem plantAll_last (some : edits ≠ []) :
    ∃ before q v, edits = before ++ [(q, v)] ∧
      plantAll o edits = .some (plant (plantAll o before) q v) := by
  obtain ⟨before, ⟨q, v⟩, rfl⟩ := List.eq_nil_or_concat' edits |>.resolve_left some
  exact ⟨before, q, v, rfl, plantAll_concat o before q v⟩

/-- After writes that all go below there is an object. -/
theorem plantAll_document (h : ProperIn o) (plain : edits.Plain) (some : edits ≠ [])
    (named : ∀ e ∈ edits, e.1 ≠ []) : ∃ t, plantAll o edits = .some t ∧ t.Document := by
  obtain ⟨before, q, v, rfl, last⟩ := plantAll_last (o := o) some
  refine ⟨_, last, plantAll_proper h plain _ last, ?_⟩
  obtain ⟨s, q, rfl⟩ := List.exists_cons_of_ne_nil (named (q, v) (by simp))
  rfl

/-! ## What stands at the edited paths -/

/-- What stands at some paths, as edits. -/
def picks (o : Option Json) (paths : List (List String)) : Edits :=
  paths.filterMap fun q => (reach? o q).map (q, ·)

theorem mem_picks {paths : List (List String)} :
    (q, v) ∈ picks o paths ↔ q ∈ paths ∧ reach? o q = some v := by
  simp [picks, List.mem_filterMap]

theorem picks_under {paths : List (List String)}
    (keys : ∀ q ∈ paths, ∀ s ∈ q, FieldPath.index? s = none) (k : String) :
    (picks o paths).filterMap (under? k) = picks (held? o k) (paths.filterMap (tail? k)) := by
  unfold picks
  rw [List.filterMap_filterMap, List.filterMap_filterMap]
  apply List.filterMap_congr
  intro q inside
  cases q with
  | nil => cases o <;> simp [under?, tail?]
  | cons s q =>
    rw [reach?_key (keys _ inside s List.mem_cons_self)]
    by_cases same : s = k
    · subst same
      cases below : reach? (held? o s) q <;> simp [under?, tail?, below]
    · simp [under?, tail?, same]

/-- To write what is there changes nothing. -/
theorem plantAll_picks_self {paths : List (List String)} (proper : v.Proper)
    (keys : ∀ q ∈ paths, ∀ s ∈ q, FieldPath.index? s = none) :
    plantAll (some v) (picks (some v) paths) = some v := by
  have each : ∀ e ∈ picks (some v) paths, plant (some v) e.1 e.2 = v := by
    intro e inside
    obtain ⟨among, found⟩ := mem_picks.mp inside
    exact plant_found proper (keys _ among) found
  generalize picks (some v) paths = edits at each
  induction edits with
  | nil => rfl
  | cons e rest ih =>
    obtain ⟨here, each⟩ := List.forall_mem_cons.mp each
    show plantAll (some (plant (some v) e.1 e.2)) rest = _
    rw [here]
    exact ih each

/-- Once the whole has been written, all the rest is there already. -/
theorem plantAll_picks_whole {l : Json} {paths : List (List String)} (proper : l.Proper)
    (keys : ∀ q ∈ paths, ∀ s ∈ q, FieldPath.index? s = none) (whole : [] ∈ paths) :
    plantAll o (picks (some l) paths) = some l := by
  obtain ⟨first, rest, rfl⟩ := List.append_of_mem whole
  have picked : picks (some l) (first ++ [] :: rest) =
      picks (some l) first ++ ([], l) :: picks (some l) rest := by
    simp [picks, reach?, follow?]
  rw [picked, plantAll, List.foldl_append]
  exact plantAll_picks_self proper fun q among =>
    keys q (List.mem_append_right _ (List.mem_cons_of_mem _ among))

/-- The paths of some edits. -/
def Edits.At (edits : Edits) (paths : List (List String)) : Prop :=
  ∀ q, q ∈ paths ↔ ∃ v, (q, v) ∈ edits

theorem Edits.At.keys {paths : List (List String)} (same : edits.At paths) (plain : edits.Plain) :
    ∀ q ∈ paths, ∀ s ∈ q, FieldPath.index? s = none := by
  intro q among
  obtain ⟨v, inside⟩ := (same q).mp among
  exact (plain _ inside).1

/-- Below an object it is enough to look at one key after the other. -/
theorem plantAll_picks_below {paths : List (List String)} (proper : ProperIn o)
    (plain : edits.Plain) (same : edits.At paths) (some : edits ≠ []) (below : [] ∉ paths)
    (each : ∀ k, plantAll (held? o k)
      (picks (plantAll (held? o k) (edits.filterMap (under? k))) (paths.filterMap (tail? k))) =
        plantAll (held? o k) (edits.filterMap (under? k))) :
    plantAll o (picks (plantAll o edits) paths) = plantAll o edits := by
  have keys := same.keys plain
  have named : ∀ e ∈ edits, e.1 ≠ [] := fun e inside root =>
    below ((same []).mpr ⟨e.2, root ▸ inside⟩)
  obtain ⟨l, made, document⟩ := plantAll_document proper plain some named
  have plain' : Edits.Plain (picks (.some l) paths) := by
    intro e inside
    obtain ⟨among, found⟩ := mem_picks.mp inside
    exact ⟨keys _ among, document.proper.follow? found⟩
  have named' : ∀ e ∈ picks (.some l) paths, e.1 ≠ [] := fun e inside root =>
    below (root ▸ (mem_picks.mp inside).1)
  -- the last edit is still there
  have some' : picks (.some l) paths ≠ [] := by
    obtain ⟨before, q, v, last, written⟩ := plantAll_last (o := o) some
    have inside : (q, v) ∈ edits := last ▸ List.mem_append_right _ List.mem_cons_self
    have found : reach? (.some l) q = .some v := by
      rw [← made, written]
      exact reach?_plant (plain _ inside).1
    exact List.ne_nil_of_mem (mem_picks.mpr ⟨(same q).mpr ⟨v, inside⟩, found⟩)
  obtain ⟨l', made', document'⟩ := plantAll_document proper plain' some' named'
  rw [made, made']
  refine congrArg Option.some (object_ext document' document fun k => ?_)
  rw [← made', ← made, held?_plantAll (made ▸ named'), made, picks_under keys, ← made,
    held?_plantAll named]
  exact each k

/-- The writes at the edited paths make up for all edits. The induction is on the length of the
paths: under each key of the outermost object stand shorter ones. -/
theorem plantAll_picks {paths : List (List String)} (proper : ProperIn o) (plain : edits.Plain)
    (same : edits.At paths) : plantAll o (picks (plantAll o edits) paths) = plantAll o edits := by
  obtain ⟨n, short⟩ := edits.exists_longer
  induction n generalizing o edits paths with
  | zero =>
    obtain rfl : edits = [] := List.eq_nil_iff_forall_not_mem.mpr fun e inside =>
      Nat.not_lt_zero _ (short e inside)
    obtain rfl : paths = [] := by simpa [Edits.At, List.eq_nil_iff_forall_not_mem] using same
    rfl
  | succ n ih =>
    by_cases none : edits = []
    · exact ih proper plain same (by simp [none])
    by_cases whole : [] ∈ paths
    · obtain ⟨before, q, v, -, written⟩ := plantAll_last (o := o) none
      rw [written]
      exact plantAll_picks_whole (plantAll_proper proper plain _ written) (same.keys plain) whole
    · refine plantAll_picks_below proper plain same none whole fun k => ?_
      refine ih (proper.held k) (plain.under k) (fun r => ?_) fun ⟨r, w⟩ inside => ?_
      · simp only [mem_tails, mem_under]
        exact same (k :: r)
      · exact Nat.lt_of_succ_lt_succ (short _ (mem_under.mp inside))

end Json

open Json

namespace Store

variable {t l : Json} {edits : List (FieldPath × Json)}

/-- Edits under paths of keys, as writes in a tree. -/
def strip (edits : List (FieldPath × Json)) : Edits := edits.map fun e => (e.1.segments, e.2)

/-- Edits under paths of keys have a result, whatever is written. -/
theorem writeAll?_keyed (object : t.kind? = some .object) (keyed : ∀ e ∈ edits, e.1.Keyed) :
    writeAll? t edits = plantAll (some t) (strip edits) := by
  induction edits generalizing t with
  | nil => rfl
  | cons e rest ih =>
    obtain ⟨here, others⟩ := List.forall_mem_cons.mp keyed
    have first := set?_keyed object here e.2
    rw [writeAll?, first]
    exact ih (write?_object object first) others

/-- What stands at the edited paths, written onto the values from before, makes up for all edits. -/
theorem writeAll?_overlay {paths : List FieldPath} (document : t.Document)
    (plain : ∀ e ∈ edits, e.1.Keyed ∧ e.2.Proper) (written : writeAll? t edits = some l)
    (same : ∀ p, p ∈ paths ↔ ∃ v, (p, v) ∈ edits) :
    writeAll? t (paths.filterMap fun p => (l.get? p).map (p, ·)) = some l := by
  have keyed : ∀ e ∈ paths.filterMap fun p => (l.get? p).map (p, ·), e.1.Keyed := by
    intro e inside
    obtain ⟨p, among, found⟩ := List.mem_filterMap.mp inside
    obtain ⟨w, -, rfl⟩ := Option.map_eq_some_iff.mp found
    obtain ⟨v, edited⟩ := (same p).mp among
    exact (plain _ edited).1
  have picked : strip (paths.filterMap fun p => (l.get? p).map (p, ·)) =
      picks (some l) (paths.map FieldPath.segments) := by
    unfold strip picks
    rw [List.map_filterMap, List.filterMap_map]
    apply List.filterMap_congr
    intro p _
    simp [Json.get?, reach?, Function.comp_def]
  rw [writeAll?_keyed document.object fun e inside => (plain e inside).1] at written
  rw [writeAll?_keyed document.object keyed, picked, ← written]
  refine plantAll_picks (by rintro _ ⟨⟩; exact document.proper) ?_ fun q => ?_
  · intro e inside
    obtain ⟨e, edited, rfl⟩ := List.mem_map.mp inside
    exact ⟨(plain e edited).1.keys, (plain e edited).2⟩
  · constructor
    · intro among
      obtain ⟨p, known, rfl⟩ := List.mem_map.mp among
      obtain ⟨v, edited⟩ := (same p).mp known
      exact ⟨v, List.mem_map.mpr ⟨(p, v), edited, rfl⟩⟩
    · rintro ⟨v, edited⟩
      obtain ⟨⟨p, w⟩, among, stripped⟩ := List.mem_map.mp edited
      cases stripped
      exact List.mem_map.mpr ⟨p, (same p).mpr ⟨_, among⟩, rfl⟩

end Store

end LiveForm
