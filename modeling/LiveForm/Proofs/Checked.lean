import Mathlib.Data.List.TakeDrop
import LiveForm.Proofs.Json.Lens

/-!
# Access with every index checked

A program reads and writes lists by indices, which are words. It stops where a list has no item at an
index, and where a sum is no word, unless its sums start again from zero then. Memory is not counted:
a list gets any length that is asked for.

* `Checked.Fault`: what such a program stops at;
* `Checked.next`, `Checked.item`, `Checked.withRoom`: its sums, its reads, and how it makes room in a
  list;
* `Checked.read`, `Checked.read_eq`: it reads what a path leads to, and never stops;
* `Checked.write`, `Checked.write_eq`: it writes what `Json.write?` does, and stops where that has no
  result;
* `Json.stations`, `Json.overruns_iff`: the nodes that a write comes to; it has no result iff one of
  them is a list that is asked for its last index.
-/

set_option autoImplicit false

namespace LiveForm

open Json

namespace Json

/-- The nodes that a write comes to, as they are found or made on the way, each with the segment by
which it goes on there. -/
def stations (t : Json) : List String → List (Json × String)
  | [] => []
  | [s] => [(t, s)]
  | s :: next :: rest => (t, s) :: stations (containerFor next (t.child? s)) (next :: rest)

theorem asksLast_iff {t : Json} {s : String} : t.asksLast s = true ↔
    ∃ xs, t = .arr xs ∧ FieldPath.index? s = some FieldPath.lastIndex := by
  cases t <;> simp [asksLast, isArray]

theorem overruns_iff {t : Json} {path : List String} : t.overruns path = true ↔
    ∃ xs s, (.arr xs, s) ∈ t.stations path ∧ FieldPath.index? s = some FieldPath.lastIndex := by
  have overruns : t.overruns path = true ↔ ∃ e ∈ t.stations path, e.1.asksLast e.2 = true := by
    induction path generalizing t with
    | nil => simp [Json.overruns, stations]
    | cons s rest ih =>
      cases rest with
      | nil => simp [Json.overruns, stations]
      | cons next rest =>
        rw [Json.overruns, Bool.or_eq_true, ih, stations, List.exists_mem_cons_iff]
  rw [overruns]
  constructor
  · rintro ⟨⟨node, s⟩, inside, last⟩
    obtain ⟨xs, rfl, index⟩ := asksLast_iff.mp last
    exact ⟨xs, s, inside, index⟩
  · rintro ⟨xs, s, inside, index⟩
    exact ⟨_, inside, asksLast_iff.mpr ⟨xs, rfl, index⟩⟩

end Json

namespace Checked

/-- What a program that counts in words stops at: a sum is no word, a list has no item at an index, or
a node that has been made a container is none. -/
inductive Fault where
  | overflow
  | outOfRange
  | noContainer
  deriving DecidableEq, Repr

/-- The word after a word. After the last one it is refused, or zero again. -/
def next (wraps : Bool) (i : Nat) : Except Fault Nat :=
  if i + 1 < Text.wordBound then .ok (i + 1)
  else if wraps then .ok ((i + 1) % Text.wordBound)
  else .error .overflow

def item {α : Type} (xs : List α) (i : Nat) : Except Fault α :=
  match xs[i]? with
  | some x => .ok x
  | none => .error .outOfRange

/-- The item at an index, if the index is below the length. -/
def item? {α : Type} (xs : List α) (i : Nat) : Except Fault (Option α) :=
  if i < xs.length then (item xs i).map some else .ok none

/-- A list that ends before an index is resized, with `null` in the new places. -/
def withRoom (wraps : Bool) (i : Nat) (xs : List Json) : Except Fault (List Json) :=
  if xs.length ≤ i then (next wraps i).map fun n => xs.takeD n .null else .ok xs

/-- A list with room for an index, and what is there. -/
def slot (wraps : Bool) (i : Nat) (xs : List Json) : Except Fault (List Json × Json) := do
  let ys ← withRoom wraps i xs
  .ok (ys, ← item ys i)

/-! ## Reading -/

def child (t : Json) (s : String) : Except Fault (Option Json) :=
  match t with
  | .obj ms => .ok (Assoc.find? s ms)
  | .arr xs =>
    match FieldPath.index? s with
    | some i => item? xs i
    | none => .ok none
  | _ => .ok none

def read (t : Json) : List String → Except Fault (Option Json)
  | [] => .ok (some t)
  | s :: rest => do
    match ← child t s with
    | some c => read c rest
    | none => .ok none

/-! ## Writing -/

/-- The place of a list that a segment names. -/
def place? (t : Json) (s : String) : Option Nat :=
  match t with
  | .arr _ => FieldPath.index? s
  | _ => none

/-- A node without a place for a segment gives way to an empty object. -/
def vessel (t : Json) (s : String) : Json :=
  if place? t s = none ∧ t.kind? ≠ some .object then emptyObject else t

/-- Writes what is in a place of a container. The place is made if it is not there. -/
def fillIn (wraps : Bool) (node : Json) (place : Option Nat) (s : String)
    (write : Json → Except Fault Json) : Except Fault Json :=
  match node, place with
  | .arr xs, some i => do
    let (ys, old) ← slot wraps i xs
    let new ← write old
    .ok (.arr (ys.set i new))
  | .obj ms, _ => do
    let new ← write ((Assoc.find? s ms).getD .null)
    .ok (.obj (Assoc.insert s new ms))
  | _, _ => .error .noContainer

def fill (wraps : Bool) (t : Json) (s : String) (write : Json → Except Fault Json) :
    Except Fault Json :=
  fillIn wraps (vessel t s) (place? t s) s write

def write (wraps : Bool) (t : Json) : List String → Json → Except Fault Json
  | [], _ => .ok t
  | [s], v => fill wraps t s fun _ => .ok v
  | s :: s' :: rest, v =>
    fill wraps t s fun old => write wraps (containerFor s' (some old)) (s' :: rest) v

/-- What a write stops at. If sums start again from zero, the list is emptied and has no item then. -/
def overrun (wraps : Bool) : Fault := if wraps then .outOfRange else .overflow

variable {wraps : Bool} {i n : Nat} {xs : List Json} {t v : Json} {s : String} {path : List String}

@[simp] theorem ok_bind {α β : Type} (a : α) (f : α → Except Fault β) :
    (Except.ok a >>= f) = f a := rfl

/-! ## Lists -/

theorem next_eq (inner : i < FieldPath.lastIndex) : next wraps i = .ok (i + 1) := by
  unfold FieldPath.lastIndex at inner
  exact if_pos (by omega)

theorem item?_eq {α : Type} (xs : List α) (i : Nat) : item? xs i = .ok xs[i]? := by
  unfold item? item
  by_cases inside : i < xs.length
  · simp [inside, Except.map]
  · simp [inside]

theorem getElem?_takeD (inside : i < n) (xs : List Json) :
    (xs.takeD n .null)[i]? = some (xs[i]?.getD .null) := by
  induction i generalizing n xs with
  | zero =>
    obtain ⟨n, rfl⟩ := Nat.exists_eq_succ_of_ne_zero (Nat.ne_of_gt inside)
    cases xs <;> simp
  | succ i ih =>
    obtain ⟨n, rfl⟩ := Nat.exists_eq_succ_of_ne_zero (Nat.ne_zero_of_lt inside)
    rw [List.takeD_succ, List.getElem?_cons_succ, ih (Nat.lt_of_succ_lt_succ inside)]
    cases xs <;> simp

/-- It does not matter whether an item is put into a list before or after the list is resized. -/
theorem set_takeD (inside : i < n) (v : Json) (xs : List Json) :
    (xs.takeD n .null).set i v = (putItem v i xs).takeD n .null := by
  induction i generalizing n xs with
  | zero =>
    obtain ⟨n, rfl⟩ := Nat.exists_eq_succ_of_ne_zero (Nat.ne_of_gt inside)
    cases xs <;> simp [putItem]
  | succ i ih =>
    obtain ⟨n, rfl⟩ := Nat.exists_eq_succ_of_ne_zero (Nat.ne_zero_of_lt inside)
    have below := ih (Nat.lt_of_succ_lt_succ inside)
    cases xs with
    | nil => simpa [putItem] using below []
    | cons x xs => simpa [putItem] using below xs

theorem takeD_length_self (h : xs.length = n) : xs.takeD n .null = xs := by
  rw [List.takeD_eq_take _ (Nat.le_of_eq h.symm), ← h, List.take_length]

theorem withRoom_eq (inner : i < FieldPath.lastIndex) (xs : List Json) :
    withRoom wraps i xs = .ok (xs.takeD (max xs.length (i + 1)) .null) := by
  unfold withRoom
  split
  · rename_i short
    rw [next_eq inner, Nat.max_eq_right (by omega)]
    rfl
  · rw [Nat.max_eq_left (by omega), takeD_length_self rfl]

theorem slot_eq (wraps : Bool) (inner : i < FieldPath.lastIndex) (xs : List Json) :
    ∃ ys, slot wraps i xs = .ok (ys, xs[i]?.getD .null) ∧ ∀ v, ys.set i v = putItem v i xs := by
  have inside : i < max xs.length (i + 1) := by omega
  have opened : slot wraps i xs =
      .ok (xs.takeD (max xs.length (i + 1)) .null, xs[i]?.getD .null) := by
    rw [slot, withRoom_eq inner, ok_bind, item, getElem?_takeD inside]
    rfl
  refine ⟨_, opened, ?_⟩
  intro v
  rw [set_takeD inside, takeD_length_self (length_putItem v i xs)]

/-- There is no place at the last index of a list. -/
theorem slot_last (short : xs.length ≤ FieldPath.lastIndex) :
    slot wraps FieldPath.lastIndex xs = .error (overrun wraps) := by
  rw [slot, withRoom, if_pos short]
  cases wraps <;> rfl

/-! ## Reads -/

theorem child_eq (t : Json) (s : String) : child t s = .ok (t.child? s) := by
  cases t with
  | arr xs =>
    rw [child, Json.child?]
    cases FieldPath.index? s with
    | none => rfl
    | some i => exact item?_eq xs i
  | _ => rfl

theorem read_eq (t : Json) (q : List String) : read t q = .ok (t.follow? q) := by
  induction q generalizing t with
  | nil => rfl
  | cons s rest ih =>
    rw [read, child_eq, follow?]
    cases t.child? s with
    | none => rfl
    | some c => exact ih c

/-! ## Writes -/

theorem fill_last (proper : t.Proper) (last : t.asksLast s = true)
    (write : Json → Except Fault Json) : fill wraps t s write = .error (overrun wraps) := by
  cases proper with
  | @arr xs short _ =>
    have index : FieldPath.index? s = some FieldPath.lastIndex := by
      simpa [asksLast, isArray] using last
    have place : place? (.arr xs) s = some FieldPath.lastIndex := index
    have node : vessel (.arr xs) s = .arr xs := by simp [vessel, place]
    rw [fill, node, place, fillIn, slot_last short]
    rfl
  | _ => simp [asksLast, isArray] at last

/-- A node without a place for the segment is replaced, by what is written in an object. -/
theorem fill_fresh (place : place? t s = none) (other : t.kind? ≠ some .object)
    (write : Json → Except Fault Json) :
    fill wraps t s write = (write .null).map fun v => .obj [(s, v)] := by
  have node : vessel t s = emptyObject := if_pos ⟨place, other⟩
  rw [fill, node, emptyObject, fillIn, Assoc.find?_nil, Option.getD_none]
  cases write .null <;> rfl

/-- Where no list is asked for its last index, what is written takes its place as in
`Json.putChild?`. -/
theorem fill_puts (wraps : Bool) (inner : t.asksLast s = false) :
    ∃ put : Json → Json, (∀ v, t.putChild? s v = some (put v)) ∧
      ∀ write, fill wraps t s write = (write ((t.child? s).getD .null)).map put := by
  cases t with
  | obj ms =>
    have node : vessel (.obj ms) s = .obj ms := by simp [vessel, kind?]
    refine ⟨fun v => .obj (Assoc.insert s v ms), fun _ => rfl, ?_⟩
    intro write
    rw [fill, node, fillIn, Json.child?]
    cases write ((Assoc.find? s ms).getD .null) <;> rfl
  | arr xs =>
    cases index : FieldPath.index? s with
    | none =>
      have place : place? (.arr xs) s = none := index
      have absent : (Json.arr xs).child? s = none := by simp [Json.child?, index]
      refine ⟨fun v => .obj [(s, v)], fun v => by simp [putChild?, index], ?_⟩
      intro write
      rw [fill_fresh place (by simp [kind?]), absent]
      rfl
    | some i =>
      have other : i ≠ FieldPath.lastIndex := by simpa [asksLast, isArray, index] using inner
      have place : place? (.arr xs) s = some i := index
      have node : vessel (.arr xs) s = .arr xs := by simp [vessel, place]
      have there : (Json.arr xs).child? s = xs[i]? := by simp [Json.child?, index]
      obtain ⟨ys, opened, put⟩ :=
        slot_eq wraps (Nat.lt_of_le_of_ne (index?_le index) other) xs
      refine ⟨fun v => .arr (putItem v i xs), putChild?_item index other, ?_⟩
      intro write
      rw [fill, node, place, fillIn, opened, ok_bind, there]
      simp only [put]
      cases write (xs[i]?.getD .null) <;> rfl
  | _ =>
    refine ⟨fun v => .obj [(s, v)], fun _ => rfl, ?_⟩
    exact fill_fresh rfl (by simp [kind?])

theorem containerFor_getD (next : String) (o : Option Json) :
    containerFor next (some (o.getD .null)) = containerFor next o := by
  cases o <;> rfl

/-- A write comes to the same, and stops where there is no result. -/
theorem write_eq (proper : t.Proper) (path : List String) (v : Json) :
    write wraps t path v = (t.write? path v).elim (.error (overrun wraps)) .ok := by
  induction path generalizing t with
  | nil => rfl
  | cons s rest ih =>
    cases last : t.asksLast s with
    | true =>
      have none : t.write? (s :: rest) v = none := by
        rw [write?_eq_none]
        cases rest with
        | nil => exact last
        | cons => exact Bool.or_eq_true_iff.mpr (.inl last)
      rw [none]
      cases rest <;> exact fill_last proper last _
    | false =>
      obtain ⟨put, puts, fills⟩ := fill_puts wraps last
      cases rest with
      | nil =>
        rw [write, fills, write?, puts]
        rfl
      | cons next rest =>
        have below := ih (.containerFor (fun c (there : t.child? s = some c) => proper.child? there)
          next)
        rw [write, fills, containerFor_getD, below, write?]
        cases (containerFor next (t.child? s)).write? (next :: rest) v with
        | none => rfl
        | some c =>
          rw [Option.bind_some, puts]
          rfl

end Checked

end LiveForm
