import LiveForm.Json.Basic
import LiveForm.Proofs.Assoc

/-!
# Values in normal form

* `Json.Normal`: the members of every object stand in the order of their keys;
* `Json.normal_arr`, `Json.normal_obj`: what that says of a list and of an object;
* `Json.normalize_normal`: normalization brings it about.
-/

set_option autoImplicit false

namespace LiveForm.Json

variable {v : Json} {xs : List Json} {ms : List (String × Json)} {k : String}

/-- Holds of values that normalization leaves as they are. -/
def Normal (v : Json) : Prop := v.normalize = v

theorem map_eq_self_iff {α : Type} {f : α → α} {l : List α} :
    l.map f = l ↔ ∀ a ∈ l, f a = a := by
  simpa using List.map_inj_left (l := l) (f := f) (g := id)

theorem normalizeItems_eq_map (xs : List Json) : normalizeItems xs = xs.map normalize := by
  induction xs with
  | nil => rfl
  | cons x xs ih => rw [normalizeItems, ih, List.map_cons]

theorem normalizeMembers_eq_map (ms : List (String × Json)) :
    normalizeMembers ms = ms.map fun e => (e.1, e.2.normalize) := by
  induction ms with
  | nil => rfl
  | cons e ms ih => rw [normalizeMembers, ih, List.map_cons]

@[simp] theorem keys_normalizeMembers : Assoc.keys (normalizeMembers ms) = Assoc.keys ms := by
  simp [Assoc.keys, normalizeMembers_eq_map]

theorem find?_normalizeMembers :
    Assoc.find? k (normalizeMembers ms) = (Assoc.find? k ms).map normalize := by
  induction ms with
  | nil => rfl
  | cons e ms ih =>
    rw [normalizeMembers, Assoc.find?, Assoc.find?, ih]
    split <;> rfl

theorem sorted_normalizeMembers (h : Assoc.Sorted ms) : Assoc.Sorted (normalizeMembers ms) := by
  rw [normalizeMembers_eq_map]
  exact List.pairwise_map.mpr h

theorem normal_arr : (arr xs).Normal ↔ ∀ x ∈ xs, x.Normal := by
  rw [Normal, normalize, normalizeItems_eq_map, arr.injEq, map_eq_self_iff]
  rfl

theorem normal_obj : (obj ms).Normal ↔ Assoc.Sorted ms ∧ ∀ e ∈ ms, e.2.Normal := by
  have fixed : normalizeMembers ms = ms ↔ ∀ e ∈ ms, e.2.Normal := by
    rw [normalizeMembers_eq_map, map_eq_self_iff]
    exact forall₂_congr fun e _ => by rw [Prod.ext_iff]; simp [Normal]
  rw [Normal, normalize, obj.injEq, ← fixed]
  constructor
  · intro same
    have sorted : Assoc.Sorted ms := same ▸ Assoc.sorted_ofPairs
    rw [(sorted_normalizeMembers sorted).ofPairs_eq] at same
    exact ⟨sorted, same⟩
  · rintro ⟨sorted, same⟩
    rw [same, sorted.ofPairs_eq]

mutual

theorem normalize_normal : ∀ v : Json, v.normalize.Normal
  | .null | .bool _ | .int _ | .float _ | .str _ => rfl
  | .arr xs => by
    rw [normalize]
    exact normal_arr.mpr (normalizeItems_normal xs)
  | .obj ms => by
    rw [normalize]
    exact normal_obj.mpr ⟨Assoc.sorted_ofPairs, fun e inside =>
      normalizeMembers_normal ms e (Assoc.mem_of_mem_ofPairs inside)⟩

theorem normalizeItems_normal : ∀ xs : List Json, ∀ x ∈ normalizeItems xs, x.Normal
  | [] => by simp [normalizeItems]
  | x :: xs => by
    rw [normalizeItems]
    exact List.forall_mem_cons.mpr ⟨normalize_normal x, normalizeItems_normal xs⟩

theorem normalizeMembers_normal :
    ∀ ms : List (String × Json), ∀ e ∈ normalizeMembers ms, e.2.Normal
  | [] => by simp [normalizeMembers]
  | (_, v) :: ms => by
    rw [normalizeMembers]
    exact List.forall_mem_cons.mpr ⟨normalize_normal v, normalizeMembers_normal ms⟩

end

end LiveForm.Json
