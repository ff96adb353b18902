import LiveForm.Proofs.Wire.Slots

/-!
# Types whose values survive being written out

* `Wire.Arranged`: which values of a type are in order, all maps in them sorted by their keys;
* `Wire.write`: a value as a medium keeps it;
* `Wire.Faithful`: what was written is read again, and what is read is in order.
-/

set_option autoImplicit false

namespace LiveForm.Wire

/-- The values of a type that are in order: the members of each document in them, and the errors
of fields, stand in the order of their keys. -/
class Arranged (α : Type) where
  InOrder : α → Prop

export Arranged (InOrder)

def write {α : Type} [Wire α] (m : Medium) (x : α) : Json := m.layOut (encode x)

/-- What is written to a medium is read again as it was, also from another medium. What is read is
in order. -/
class Faithful (α : Type) [Wire α] [Arranged α] : Prop where
  decode?_write : ∀ {x : α} {m m' : Medium}, InOrder x → decode? m' (write m x) = some x
  inOrder_of_decode? : ∀ {m : Medium} {j : Json} {x : α},
    m.Holds j → decode? m j = some x → InOrder x
  inOrder_absent : ∀ {x : α}, absent? = some x → InOrder x

/-- Types no value of which is written as `null`. -/
class NeverNull (α : Type) [Wire α] : Prop where
  encode_ne_null : ∀ x : α, encode x ≠ .null

theorem layOut_eq_null {m : Medium} {j : Json} : m.layOut j = .null ↔ j = .null := by
  cases m <;> cases j <;> simp [Medium.layOut, Json.normalize]

section Slots

variable {α : Type} [Wire α] [Arranged α] [Faithful α] {x default : α} {m m' : Medium} {slot : Slot}

theorem Slot.read_write (h : InOrder x) : (Slot.given (m.layOut (encode x))).read m' = some x :=
  Faithful.decode?_write h

theorem Slot.readOr_write (h : InOrder x) :
    (Slot.given (m.layOut (encode x))).readOr m' default = some x :=
  Faithful.decode?_write h

theorem Slot.Holds.inOrder (h : slot.Holds m) (read : slot.read m = some x) : InOrder x := by
  cases slot with
  | given j => exact Faithful.inOrder_of_decode? (h j rfl) read
  | absent => exact Faithful.inOrder_absent read
  | leftOff => cases read

theorem Slot.Holds.inOrder_or (h : slot.Holds m) (usual : InOrder default)
    (read : slot.readOr m default = some x) : InOrder x := by
  cases slot with
  | given j => exact Faithful.inOrder_of_decode? (h j rfl) read
  | absent | leftOff =>
    cases read
    exact usual

end Slots

section Scalars

instance : Arranged Bool := ⟨fun _ => True⟩
instance : Arranged String := ⟨fun _ => True⟩
instance : Arranged UInt32 := ⟨fun _ => True⟩
instance : Arranged UInt64 := ⟨fun _ => True⟩

@[simp] theorem inOrder_bool (b : Bool) : InOrder b := trivial
@[simp] theorem inOrder_string (s : String) : InOrder s := trivial
@[simp] theorem inOrder_uint32 (n : UInt32) : InOrder n := trivial
@[simp] theorem inOrder_uint64 (n : UInt64) : InOrder n := trivial

instance : Faithful Bool where
  decode?_write {_ m _} _ := by cases m <;> rfl
  inOrder_of_decode? _ _ := trivial
  inOrder_absent := nofun

instance : Faithful String where
  decode?_write {_ m _} _ := by cases m <;> rfl
  inOrder_of_decode? _ _ := trivial
  inOrder_absent := nofun

theorem natural?_int {bound n : Nat} (h : n < bound) : natural? bound (.int n) = some n := by
  simp [natural?, h]

theorem layOut_int {m : Medium} {n : Int} : m.layOut (.int n) = .int n := by
  cases m <;> rfl

instance : Faithful UInt32 where
  decode?_write {x _ _} _ := by
    rw [write, encode, instUInt32, layOut_int]
    simp only [decode?, natural?_int (UInt32.toNat_lt x), Option.map_some, UInt32.ofNat_toNat]
  inOrder_of_decode? _ _ := trivial
  inOrder_absent := nofun

instance : Faithful UInt64 where
  decode?_write {x _ _} _ := by
    have bounded : x.toNat < Text.wordBound := UInt64.toNat_lt x
    rw [write, encode, instUInt64, layOut_int]
    simp only [decode?, natural?_int bounded, Option.map_some, UInt64.ofNat_toNat]
  inOrder_of_decode? _ _ := trivial
  inOrder_absent := nofun

instance : NeverNull String := ⟨nofun⟩
instance : NeverNull UInt64 := ⟨nofun⟩

end Scalars

/-- A document is in order if its members are. -/
instance : Arranged Json := ⟨Json.Normal⟩

instance : Faithful Json where
  decode?_write {x m m'} h := by
    have written : write m x = x := Medium.holds_layOut h
    rw [written]
    cases m' with
    | tree => rfl
    | text => exact congrArg some h
  inOrder_of_decode? {m j x} h read := by
    cases m with
    | tree =>
      cases read
      exact h rfl
    | text =>
      cases read
      exact j.normalize_normal
  inOrder_absent := nofun

section Containers

variable {α : Type} [Wire α] [Arranged α] [Faithful α]

instance : Arranged (Option α) := ⟨fun x => ∀ a ∈ x, InOrder a⟩

omit [Wire α] [Faithful α] in
@[simp] theorem inOrder_option {x : Option α} : InOrder x ↔ ∀ a ∈ x, InOrder a := Iff.rfl

instance [NeverNull α] : Faithful (Option α) where
  decode?_write {x m m'} h := by
    cases x with
    | none => cases m <;> rfl
    | some a =>
      have solid : write m a ≠ .null := fun null =>
        NeverNull.encode_ne_null a (layOut_eq_null.mp null)
      have read : decode? m' (write m a) = some a := Faithful.decode?_write (h a rfl)
      show (match write m a with
        | .null => some none
        | j => (decode? m' j).map some) = some (some a)
      split
      · contradiction
      · rw [read, Option.map_some]
  inOrder_of_decode? {m j x} h read := by
    intro a same
    subst same
    simp only [decode?] at read
    split at read
    · cases read
    · obtain ⟨a', read, same⟩ := Option.map_eq_some_iff.mp read
      cases same
      exact Faithful.inOrder_of_decode? h read
  inOrder_absent h := by
    cases h
    nofun

instance : Arranged (List α) := ⟨fun xs => ∀ x ∈ xs, InOrder x⟩

omit [Wire α] [Faithful α] in
@[simp] theorem inOrder_list {xs : List α} : InOrder xs ↔ ∀ x ∈ xs, InOrder x := Iff.rfl

theorem mapM_write {xs : List α} {m m' : Medium} (h : InOrder xs) :
    (xs.map (write m)).mapM (decode? m') = some xs := by
  induction xs with
  | nil => rfl
  | cons x xs ih =>
    obtain ⟨first, others⟩ := List.forall_mem_cons.mp h
    rw [List.map_cons, List.mapM_cons, Faithful.decode?_write first, ih others]
    rfl

theorem mem_mapM {β γ : Type} {f : β → Option γ} {bs : List β} {cs : List γ}
    (h : bs.mapM f = some cs) : ∀ c ∈ cs, ∃ b ∈ bs, f b = some c := by
  induction bs generalizing cs with
  | nil =>
    cases h
    nofun
  | cons b bs ih =>
    rw [List.mapM_cons] at h
    obtain ⟨c, first, h⟩ := Option.bind_eq_some_iff.mp h
    obtain ⟨cs, others, h⟩ := Option.bind_eq_some_iff.mp h
    cases h
    refine List.forall_mem_cons.mpr ⟨⟨b, List.mem_cons_self, first⟩, fun c' inside => ?_⟩
    obtain ⟨b', inside, made⟩ := ih others c' inside
    exact ⟨b', List.mem_cons_of_mem _ inside, made⟩

instance : Faithful (List α) where
  decode?_write {xs m m'} h := by
    have written : write m xs = .arr (xs.map (write m)) := by
      rw [write, encode, instList, Medium.layOut_arr, List.map_map]
      rfl
    rw [written]
    exact mapM_write h
  inOrder_of_decode? {m j xs} h read := by
    simp only [decode?] at read
    split at read
    · intro x inside
      obtain ⟨j', inside', made⟩ := mem_mapM read x inside
      exact Faithful.inOrder_of_decode? (h.item j' inside') made
    · cases read
  inOrder_absent := nofun

end Containers

/-- Errors are in order if the names of the fields are. -/
instance : Arranged FieldErrors := ⟨Assoc.Sorted⟩

theorem layOut_errors {m : Medium} {errors : FieldErrors} (h : Assoc.Sorted errors) :
    m.layOut (.obj (errors.map fun e => (e.1, Json.str e.2))) =
      .obj (errors.map fun e => (e.1, Json.str e.2)) := by
  refine Medium.holds_layOut (Json.normal_obj.mpr ⟨List.pairwise_map.mpr h, fun e inside => ?_⟩)
  obtain ⟨e, -, rfl⟩ := List.mem_map.mp inside
  rfl

theorem mapM_errors {m : Medium} (errors : FieldErrors) :
    (errors.map fun e => (e.1, Json.str e.2)).mapM
      (fun e => (decode? m e.2).map fun message : String => (e.1, message)) = some errors := by
  induction errors with
  | nil => rfl
  | cons e errors ih =>
    rw [List.map_cons, List.mapM_cons, ih]
    rfl

instance : Faithful FieldErrors where
  decode?_write {errors m m'} h := by
    have written : write m errors = .obj (errors.map fun e => (e.1, Json.str e.2)) :=
      layOut_errors h
    rw [written]
    have made := congrArg (Option.map Assoc.ofPairs) (mapM_errors (m := m') errors)
    exact made.trans (congrArg some (Assoc.Sorted.ofPairs_eq h))
  inOrder_of_decode? {m j errors} _ read := by
    simp only [decode?] at read
    split at read
    · obtain ⟨pairs, -, rfl⟩ := Option.map_eq_some_iff.mp read
      exact Assoc.sorted_ofPairs
    · cases read
  inOrder_absent := nofun

end LiveForm.Wire
