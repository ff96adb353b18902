import LiveForm.Proofs.Json.Normal
import LiveForm.Wire.Basic

/-!
# Fields of a record that was written out

What is written to a tree comes to stand in the order of its keys, what is written to a text stays
in the order in which it was written.

* `Medium.layOut`, `Medium.Holds`: how a medium keeps what is written to it, and what can be read
  from it;
* `Wire.slots?_record`, `Wire.tagged?_record`: from either medium a record gives its fields by name;
* `Wire.holds_of_slots?`, `Wire.holds_of_tagged?`: the fields are such as the medium holds.
-/

set_option autoImplicit false

namespace LiveForm

/-- How a medium keeps a value. -/
def Medium.layOut : Medium → Json → Json
  | .tree, j => j.normalize
  | .text, j => j

/-- Holds of what can stand in a medium. Only in a text members stand in any order. -/
def Medium.Holds (m : Medium) (j : Json) : Prop := m = .tree → j.Normal

namespace Medium

variable {m : Medium} {j : Json} {k : String} {xs : List Json} {ms : List (String × Json)}

theorem holds_layOut (h : j.Normal) : m.layOut j = j := by
  cases m
  · exact h
  · rfl

theorem layOut_arr : m.layOut (.arr xs) = .arr (xs.map m.layOut) := by
  cases m
  · simp only [layOut, Json.normalize, Json.normalizeItems_eq_map]
    rfl
  · simp only [layOut]
    exact congrArg Json.arr (List.map_id xs).symm

theorem layOut_member : m.layOut (.obj [(k, j)]) = .obj [(k, m.layOut j)] := by
  cases m <;> rfl

/-- A record whose fields have distinct names keeps each of them. -/
theorem layOut_record (distinct : (Assoc.keys ms).Nodup) : ∃ ms', m.layOut (.obj ms) = .obj ms' ∧
    (Assoc.keys ms').Nodup ∧ ∀ k, Assoc.find? k ms' = (Assoc.find? k ms).map m.layOut := by
  cases m with
  | tree =>
    refine ⟨_, rfl, Assoc.sorted_ofPairs.distinct, fun k => ?_⟩
    have distinct' : (Assoc.keys (Json.normalizeMembers ms)).Nodup := by
      rwa [Json.keys_normalizeMembers]
    rw [Assoc.find?_ofPairs distinct', Json.find?_normalizeMembers]
    rfl
  | text => exact ⟨_, rfl, distinct, fun k => Option.map_id_apply'.symm⟩

theorem Holds.item (h : m.Holds (.arr xs)) : ∀ x ∈ xs, m.Holds x :=
  fun x inside tree => Json.normal_arr.mp (h tree) x inside

theorem Holds.member (h : m.Holds (.obj ms)) : ∀ e ∈ ms, m.Holds e.2 :=
  fun e inside tree => (Json.normal_obj.mp (h tree)).2 e inside

theorem Holds.found (h : m.Holds (.obj ms)) (found : Assoc.find? k ms = some j) : m.Holds j :=
  h.member _ (Assoc.mem_of_find? found)

theorem Holds.items {xs' : List Json} (h : m.Holds (.arr xs)) (part : ∀ x ∈ xs', x ∈ xs) :
    m.Holds (.arr xs') :=
  fun tree => Json.normal_arr.mpr fun x inside => h.item x (part x inside) tree

end Medium

namespace Wire

variable {m : Medium} {j : Json} {names : List String} {tag name : String}
  {ms : List (String × Json)} {slots : List Slot} {slot : Slot}

/-- Holds of a field whose value a medium holds. -/
def Slot.Holds (m : Medium) (slot : Slot) : Prop := ∀ j, slot = .given j → m.Holds j

theorem noneRepeated_of_distinct (distinct : (Assoc.keys ms).Nodup) :
    noneRepeated names ms = true := by
  refine List.all_eq_true.mpr fun name _ => decide_eq_true ?_
  have once := List.nodup_iff_count.mp distinct name
  rwa [Assoc.keys, List.count, List.countP_map, List.countP_eq_length_filter] at once

theorem memberSlots?_layOut (distinct : (Assoc.keys ms).Nodup) :
    memberSlots? names (m.layOut (record ms)) = some (names.map fun name =>
      (Assoc.find? name ms).elim .absent fun j => .given (m.layOut j)) := by
  obtain ⟨ms', out, distinct', found⟩ := Medium.layOut_record (m := m) distinct
  rw [record, out, memberSlots?, if_pos (noneRepeated_of_distinct distinct')]
  simp only [found, Option.elim_map]
  rfl

/-- Read by the names of some of its members, a record gives these as they were written. -/
theorem memberSlots?_part {part : List (String × Json)} (distinct : (Assoc.keys ms).Nodup)
    (within : ∀ e ∈ part, e ∈ ms) : memberSlots? (Assoc.keys part) (m.layOut (record ms)) =
      some (part.map fun e => .given (m.layOut e.2)) := by
  rw [memberSlots?_layOut distinct, Assoc.keys, List.map_map]
  refine congrArg some (List.map_congr_left fun e inside => ?_)
  rw [Function.comp_apply, Assoc.find?_of_mem distinct (within e inside), Option.elim_some]

theorem memberSlots?_record (all : Assoc.keys ms = names) (distinct : names.Nodup) :
    memberSlots? names (m.layOut (record ms)) = some (ms.map fun e => .given (m.layOut e.2)) := by
  subst all
  exact memberSlots?_part distinct fun _ inside => inside

theorem slots?_eq_memberSlots? (read : memberSlots? names j = some slots) :
    slots? names j = some slots := by
  rw [slots?, read]
  rfl

theorem slots?_record (all : Assoc.keys ms = names) (distinct : names.Nodup) :
    slots? names (m.layOut (record ms)) = some (ms.map fun e => .given (m.layOut e.2)) :=
  slots?_eq_memberSlots? (memberSlots?_record all distinct)

/-- A record that a tag stands before is told by the tag, and its own fields are read beside it. -/
theorem tagged?_record (own : Assoc.keys ms = names) (distinct : (tag :: names).Nodup) :
    let written := m.layOut (record ((tag, .str name) :: ms))
    tagged? tag written = some (name, written) ∧
      slots? names written = some (ms.map fun e => .given (m.layOut e.2)) := by
  subst own
  have distinct : (Assoc.keys ((tag, Json.str name) :: ms)).Nodup := distinct
  refine ⟨?_, slots?_eq_memberSlots? (memberSlots?_part distinct fun _ => List.mem_cons_of_mem _)⟩
  obtain ⟨ms', out, distinct', found⟩ := Medium.layOut_record (m := m) distinct
  have head : Assoc.find? tag ms' = some (.str name) := by
    rw [found, Assoc.find?, if_pos rfl, Option.map_some]
    cases m <;> rfl
  rw [record, out, tagged?, head]
  exact if_pos (noneRepeated_of_distinct distinct')

theorem holds_of_memberSlots? (h : m.Holds j) (read : memberSlots? names j = some slots) :
    ∀ slot ∈ slots, slot.Holds m := by
  unfold memberSlots? at read
  split at read
  · split at read
    · cases read
      intro slot inside j' given
      obtain ⟨name, -, rfl⟩ := List.mem_map.mp inside
      rename_i ms _
      cases found : Assoc.find? name ms with
      | none => simp [found] at given
      | some j'' =>
        rw [found, Option.elim_some, Slot.given.injEq] at given
        exact given ▸ h.found found
    · cases read
  · cases read

theorem holds_of_itemSlots? (h : m.Holds j) (read : itemSlots? names j = some slots) :
    ∀ slot ∈ slots, slot.Holds m := by
  unfold itemSlots? at read
  split at read
  · split at read
    · cases read
      intro slot inside j' given
      subst given
      rcases List.mem_append.mp inside with item | off
      · obtain ⟨x, item, same⟩ := List.mem_map.mp item
        cases same
        exact h.item _ item
      · cases (List.mem_replicate.mp off).2
    · cases read
  · cases read

theorem holds_of_slots? (h : m.Holds j) (read : slots? names j = some slots) :
    ∀ slot ∈ slots, slot.Holds m := by
  rw [slots?] at read
  cases members : memberSlots? names j with
  | some slots' =>
    rw [members] at read
    cases read
    exact holds_of_memberSlots? h members
  | none =>
    rw [members] at read
    exact holds_of_itemSlots? h read

theorem holds_of_tagged? {fields : Json} (h : m.Holds j)
    (read : tagged? tag j = some (name, fields)) : m.Holds fields := by
  unfold tagged? at read
  split at read
  · split at read
    · split at read
      · cases read
        exact h
      · cases read
    · cases read
  · cases read
    exact h.items fun x => List.mem_cons_of_mem _
  · cases read

end Wire

end LiveForm
