import Mathlib.Data.String.Basic
import LiveForm.Assoc

/-!
# Maps with sorted keys

* `Assoc.mem_keys_iff`, `Assoc.eq_nil_iff`: which keys a map has;
* `Assoc.Sorted.ext`: maps that have the same under each key are the same;
* `Assoc.Sorted.insert`, `Assoc.Sorted.erase`: insertions and removals keep the order of the keys;
* `Assoc.Sorted.insert_found`: to insert what is there changes nothing;
* `Assoc.sorted_ofPairs`, `Assoc.Sorted.ofPairs_eq`: a map made of pairs is sorted, and one made of
  its own pairs is the same map;
* `Assoc.find?_ofPairs`: of pairs with distinct keys it has each one.
-/

set_option autoImplicit false

namespace LiveForm.Assoc

section Keys

variable {κ α : Type} [DecidableEq κ] {k : κ} {v : α} {m : List (κ × α)}

theorem mem_of_find? (h : find? k m = some v) : (k, v) ∈ m := by
  induction m with
  | nil => cases h
  | cons e rest ih =>
    obtain ⟨k', v'⟩ := e
    simp only [find?] at h
    split at h
    · rename_i same
      cases h
      cases same
      exact List.mem_cons_self
    · exact List.mem_cons_of_mem _ (ih h)

theorem find?_eq_none (h : k ∉ keys m) : find? k m = none := by
  cases found : find? k m with
  | none => rfl
  | some v => exact absurd (List.mem_map_of_mem (mem_of_find? found)) h

/-- Of pairs with distinct keys each is the one that is found. -/
theorem find?_of_mem (distinct : (keys m).Nodup) (inside : (k, v) ∈ m) : find? k m = some v := by
  induction m with
  | nil => cases inside
  | cons e rest ih =>
    obtain ⟨k', v'⟩ := e
    obtain ⟨once, others⟩ := List.nodup_cons.mp distinct
    rcases List.mem_cons.mp inside with same | inside
    · cases same
      exact if_pos rfl
    · have inKeys : k ∈ keys rest := List.mem_map_of_mem (f := Prod.fst) inside
      have other : k' ≠ k := by
        rintro rfl
        exact once inKeys
      rw [find?, if_neg other]
      exact ih others inside

theorem mem_keys_iff : k ∈ keys m ↔ ∃ v, find? k m = some v := by
  constructor
  · intro inside
    induction m with
    | nil => cases inside
    | cons e rest ih =>
      obtain ⟨k', v'⟩ := e
      by_cases same : k' = k
      · exact ⟨v', if_pos same⟩
      · rw [find?, if_neg same]
        exact ih ((List.mem_cons.mp inside).resolve_left (Ne.symm same))
  · rintro ⟨v, found⟩
    exact List.mem_map_of_mem (mem_of_find? found)

theorem eq_nil_iff : m = [] ↔ ∀ k, find? k m = none := by
  constructor
  · rintro rfl k
    rfl
  · intro none
    cases m with
    | nil => rfl
    | cons e rest =>
      have found : find? e.1 (e :: rest) = some e.2 := if_pos rfl
      rw [none] at found
      cases found

theorem Sorted.erase [LT κ] (h : Sorted m) : Sorted (erase k m) :=
  List.Pairwise.filter _ h

end Keys

section Insertion

variable {κ α : Type} [DecidableEq κ] [LT κ] [DecidableLT κ] {k : κ} {v : α} {m ps : List (κ × α)}
  {e : κ × α}

theorem insert_ne_nil : insert k v m ≠ [] := by
  cases m with
  | nil => simp [insert]
  | cons e rest =>
    obtain ⟨k', v'⟩ := e
    simp only [insert]
    split
    · simp
    · split <;> simp

/-- Of two insertions under one key the second counts. -/
theorem insert_insert (k : κ) (v w : α) (m : List (κ × α)) :
    insert k w (insert k v m) = insert k w m := by
  induction m with
  | nil => simp [insert]
  | cons e rest ih =>
    obtain ⟨k', v'⟩ := e
    by_cases same : k' = k
    · simp [insert, same]
    · by_cases before : k < k'
      · simp [insert, same, before]
      · simp [insert, same, before, ih]

theorem length_insert_le (k : κ) (v : α) (m : List (κ × α)) :
    (insert k v m).length ≤ m.length + 1 := by
  induction m with
  | nil => exact Nat.le_refl _
  | cons e rest ih =>
    simp only [Assoc.insert]
    split
    · exact Nat.le_succ _
    · split
      · exact Nat.le_refl _
      · exact Nat.succ_le_succ ih

theorem mem_insert (h : e ∈ insert k v m) : e = (k, v) ∨ e ∈ m := by
  induction m with
  | nil => exact .inl (List.mem_singleton.mp h)
  | cons e' rest ih =>
    obtain ⟨k', v'⟩ := e'
    simp only [insert] at h
    split at h
    · exact (List.mem_cons.mp h).imp_right (List.mem_cons_of_mem _)
    · split at h
      · exact List.mem_cons.mp h
      · rcases List.mem_cons.mp h with rfl | inside
        · exact .inr List.mem_cons_self
        · exact (ih inside).imp_right (List.mem_cons_of_mem _)

theorem mem_of_mem_insertAll (h : e ∈ ps.foldl (fun m e => insert e.1 e.2 m) m) :
    e ∈ ps ∨ e ∈ m := by
  induction ps generalizing m with
  | nil => exact .inr h
  | cons p rest ih =>
    rcases ih h with inside | inside
    · exact .inl (List.mem_cons_of_mem _ inside)
    · refine (mem_insert inside).imp_left ?_
      rintro rfl
      exact List.mem_cons_self

theorem mem_of_mem_ofPairs (h : e ∈ ofPairs ps) : e ∈ ps :=
  (mem_of_mem_insertAll h).resolve_right List.not_mem_nil

theorem find?_insertAll (distinct : (keys ps).Nodup) :
    find? k (ps.foldl (fun m e => insert e.1 e.2 m) m) = (find? k ps).or (find? k m) := by
  induction ps generalizing m with
  | nil => rfl
  | cons e rest ih =>
    obtain ⟨k', v'⟩ := e
    obtain ⟨once, others⟩ := List.nodup_cons.mp distinct
    rw [List.foldl_cons, ih others, find?]
    by_cases same : k' = k
    · subst same
      rw [if_pos rfl, find?_eq_none once, find?_insert_self, Option.none_or, Option.some_or]
    · rw [if_neg same, find?_insert_ne same]

theorem find?_ofPairs (distinct : (keys ps).Nodup) : find? k (ofPairs ps) = find? k ps := by
  rw [ofPairs, find?_insertAll distinct, find?_nil, Option.or_none]

end Insertion

/-! ## The order of the keys -/

section Sorted

variable {κ α : Type} [LT κ] [IsStrictTotalOrder κ (· < ·)] {m : List (κ × α)}

theorem Sorted.distinct (h : Sorted m) : (keys m).Nodup := by
  refine List.Pairwise.map _ ?_ h
  intro a b lt same
  exact irrefl _ (same ▸ lt)

theorem Sorted.nodup (h : Sorted m) : m.Nodup := by
  refine h.imp ?_
  rintro a _ lt rfl
  exact irrefl _ lt

variable [DecidableEq κ] {k : κ} {v : α}

/-- No key is found in front of all keys. -/
theorem find?_in_front (h : ∀ e ∈ m, k < e.1) : find? k m = none := by
  cases found : find? k m with
  | none => rfl
  | some v => exact absurd (h _ (mem_of_find? found)) (irrefl k)

/-- A pair of sorted keys is the one that is found. -/
theorem Sorted.find?_eq_some (h : Sorted m) : find? k m = some v ↔ (k, v) ∈ m :=
  ⟨mem_of_find?, find?_of_mem h.distinct⟩

/-- Sorted maps that have the same under each key are the same. -/
theorem Sorted.ext {m' : List (κ × α)} (h : Sorted m) (h' : Sorted m')
    (same : ∀ k, find? k m = find? k m') : m = m' := by
  have perm : m.Perm m' := by
    rw [List.perm_ext_iff_of_nodup h.nodup h'.nodup]
    rintro ⟨k, v⟩
    rw [← h.find?_eq_some, ← h'.find?_eq_some, same k]
  refine perm.eq_of_pairwise ?_ h h'
  intro a b _ _ before behind
  exact absurd (trans_of (· < ·) before behind) (irrefl _)

variable [DecidableLT κ] {ps : List (κ × α)}

theorem Sorted.insert (h : Sorted m) : Sorted (insert k v m) := by
  induction m with
  | nil => exact List.pairwise_singleton _ _
  | cons e rest ih =>
    obtain ⟨k', v'⟩ := e
    obtain ⟨first, others⟩ := List.pairwise_cons.mp h
    simp only [Assoc.insert]
    split
    · rename_i same
      subst same
      exact List.pairwise_cons.mpr ⟨first, others⟩
    · rename_i other
      split
      · rename_i before
        refine List.pairwise_cons.mpr ⟨?_, h⟩
        intro e inside
        rcases List.mem_cons.mp inside with rfl | inside
        · exact before
        · exact trans_of (· < ·) before (first e inside)
      · rename_i after
        refine List.pairwise_cons.mpr ⟨?_, ih others⟩
        intro e inside
        rcases mem_insert inside with rfl | inside
        · by_contra ahead
          exact other (Std.Trichotomous.trichotomous _ _ ahead after)
        · exact first e inside

theorem Sorted.insert_found (h : Sorted m) (found : find? k m = some v) : Assoc.insert k v m = m := by
  induction m with
  | nil => cases found
  | cons e rest ih =>
    obtain ⟨k', v'⟩ := e
    obtain ⟨first, others⟩ := List.pairwise_cons.mp h
    by_cases same : k' = k
    · subst same
      rw [find?, if_pos rfl] at found
      cases found
      rw [Assoc.insert, if_pos rfl]
    · rw [find?, if_neg same] at found
      have before : k' < k := first _ (mem_of_find? found)
      have behind : ¬ k < k' := fun lt => irrefl k (trans_of (· < ·) lt before)
      rw [Assoc.insert, if_neg same, if_neg behind, ih others found]

theorem insert_behind (h : ∀ e ∈ m, e.1 < k) : Assoc.insert k v m = m ++ [(k, v)] := by
  induction m with
  | nil => rfl
  | cons e rest ih =>
    obtain ⟨k', v'⟩ := e
    obtain ⟨before, others⟩ := List.forall_mem_cons.mp h
    have other : k' ≠ k := fun same => irrefl k (same ▸ before)
    have after : ¬ k < k' := fun lt => irrefl k (trans_of (· < ·) lt before)
    rw [Assoc.insert, if_neg other, if_neg after, ih others, List.cons_append]

theorem Sorted.insertAll (h : Sorted m) :
    Sorted (ps.foldl (fun m e => Assoc.insert e.1 e.2 m) m) := by
  induction ps generalizing m with
  | nil => exact h
  | cons e rest ih => exact ih h.insert

theorem sorted_ofPairs : Sorted (ofPairs ps) :=
  Sorted.insertAll List.Pairwise.nil

theorem Sorted.insertAll_eq (h : Sorted (m ++ ps)) :
    ps.foldl (fun m e => Assoc.insert e.1 e.2 m) m = m ++ ps := by
  induction ps generalizing m with
  | nil => exact (List.append_nil m).symm
  | cons e rest ih =>
    have before : ∀ e' ∈ m, e'.1 < e.1 := fun e' inside =>
      (List.pairwise_append.mp h).2.2 e' inside e List.mem_cons_self
    rw [List.append_cons] at h ⊢
    rw [List.foldl_cons, insert_behind before, ih h]

theorem Sorted.ofPairs_eq (h : Sorted ps) : ofPairs ps = ps :=
  Sorted.insertAll_eq (m := []) h

end Sorted

end LiveForm.Assoc
