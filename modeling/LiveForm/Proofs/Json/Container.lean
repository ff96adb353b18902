import LiveForm.Json.Tree
import LiveForm.Proofs.Assoc

/-!
# One container

What a write does to the container it puts its value into, and to the other places there.

* `Json.Proper`: values as a program holds them. Writes keep them so;
* `Json.Puts`, `Json.putChild?_puts`: a value put under a segment is in the place that the segment
  names, and the other places are as before, but for `null` in new ones;
* `Json.putChild?_found`: to put what is there changes nothing.
-/

set_option autoImplicit false

namespace LiveForm

namespace Json

/-- Objects have their members in order, and lists have no more items than a word counts. -/
inductive Proper : Json → Prop where
  | null : Proper .null
  | bool (b : Bool) : Proper (.bool b)
  | int (n : Int) : Proper (.int n)
  | float (x : Binary64) : Proper (.float x)
  | str (s : String) : Proper (.str s)
  | arr {items : List Json} : items.length ≤ FieldPath.lastIndex → (∀ x ∈ items, Proper x) →
      Proper (.arr items)
  | obj {members : List (String × Json)} : Assoc.Sorted members → (∀ e ∈ members, Proper e.2) →
      Proper (.obj members)

/-- An optional value is proper if it is there. -/
abbrev ProperIn (o : Option Json) : Prop := ∀ t, o = some t → t.Proper

theorem Proper.there {t : Json} (h : t.Proper) : ProperIn (some t) := fun _ same =>
  Option.some.inj same ▸ h

inductive Kind where
  | object
  | list
  deriving DecidableEq

/-- The kind of a container, `none` for scalars. -/
def kind? : Json → Option Kind
  | .obj _ => some .object
  | .arr _ => some .list
  | _ => none

/-- The kind of the container at a path. -/
def kindAt? (t : Json) (q : List String) : Option Kind := (t.follow? q).bind kind?

/-- Values of a form: an object. -/
structure Document (t : Json) : Prop where
  proper : t.Proper
  object : t.kind? = some .object

/-- Two segments name one place: in an object they are one key, in a list one index. -/
def Kind.SamePlace : Kind → String → String → Prop
  | .object, s, s' => s = s'
  | .list, s, s' => FieldPath.index? s = FieldPath.index? s'

theorem Kind.SamePlace.symm {k : Kind} {s s' : String} (h : k.SamePlace s s') :
    k.SamePlace s' s := by
  cases k <;> exact Eq.symm h

theorem kind?_eq_object {t : Json} (h : t.kind? = some .object) : ∃ ms, t = .obj ms := by
  cases t with
  | obj ms => exact ⟨ms, rfl⟩
  | _ => cases h

theorem kind?_eq_list {t : Json} (h : t.kind? = some .list) : ∃ xs, t = .arr xs := by
  cases t with
  | arr xs => exact ⟨xs, rfl⟩
  | _ => cases h

/-- Only containers have children. -/
theorem kind?_of_child? {t x : Json} {s : String} (h : t.child? s = some x) :
    ∃ k, t.kind? = some k := by
  cases t with
  | obj => exact ⟨.object, rfl⟩
  | arr => exact ⟨.list, rfl⟩
  | _ => cases h

theorem child?_of_kind? {t : Json} (h : t.kind? = none) (s : String) : t.child? s = none := by
  cases t with
  | obj | arr => cases h
  | _ => rfl

theorem index?_of_list {l c : Json} {s : String} (kind : l.kind? = some .list)
    (child : l.child? s = some c) : (FieldPath.index? s).isSome := by
  obtain ⟨xs, rfl⟩ := kind?_eq_list kind
  obtain ⟨i, index, -⟩ := Option.bind_eq_some_iff.mp child
  exact Option.isSome_of_eq_some index

theorem child?_samePlace {t : Json} {k : Kind} {s s' : String} (kind : t.kind? = some k)
    (same : k.SamePlace s s') : t.child? s' = t.child? s := by
  cases k with
  | object => rw [show s = s' from same]
  | list =>
    obtain ⟨xs, rfl⟩ := kind?_eq_list kind
    rw [child?, child?, show FieldPath.index? s = FieldPath.index? s' from same]

theorem kindAt?_cons {t c : Json} {s : String} (child : t.child? s = some c) (q : List String) :
    t.kindAt? (s :: q) = c.kindAt? q := by
  rw [kindAt?, follow?, child]
  rfl

theorem child?_of_kindAt? {t : Json} {k : Kind} {s : String} {q : List String}
    (h : t.kindAt? (s :: q) = some k) : ∃ c, t.child? s = some c ∧ c.kindAt? q = some k := by
  obtain ⟨x, there, -⟩ := Option.bind_eq_some_iff.mp h
  obtain ⟨c, child, -⟩ := Option.bind_eq_some_iff.mp there
  exact ⟨c, child, (kindAt?_cons child q).symm.trans h⟩

/-! ## Items of a list -/

theorem putItem_self (v : Json) (i : Nat) (xs : List Json) : (putItem v i xs)[i]? = some v := by
  induction i generalizing xs with
  | zero => cases xs <;> rfl
  | succ i ih => cases xs <;> simp [putItem, ih]

theorem putItem_other {i j : Nat} (other : j ≠ i) (v : Json) (xs : List Json) :
    (putItem v i xs)[j]? = xs[j]? ∨ xs[j]? = none ∧ (putItem v i xs)[j]? = some .null := by
  induction i generalizing j xs with
  | zero =>
    obtain ⟨j, rfl⟩ := Nat.exists_eq_succ_of_ne_zero other
    cases xs <;> exact .inl rfl
  | succ i ih =>
    cases j with
    | zero =>
      cases xs with
      | nil => exact .inr ⟨rfl, rfl⟩
      | cons => exact .inl rfl
    | succ j =>
      have other : j ≠ i := fun same => other (congrArg Nat.succ same)
      cases xs with
      | nil => simpa [putItem] using ih other []
      | cons x xs => simpa [putItem] using ih other xs

theorem putItem_found {v : Json} {i : Nat} {xs : List Json} (found : xs[i]? = some v) :
    putItem v i xs = xs := by
  induction i generalizing xs with
  | zero =>
    cases xs with
    | nil => cases found
    | cons x xs =>
      cases found
      rfl
  | succ i ih =>
    cases xs with
    | nil => cases found
    | cons x xs => rw [putItem, ih (by simpa using found)]

theorem mem_putItem {v x : Json} {i : Nat} {xs : List Json} (h : x ∈ putItem v i xs) :
    x = v ∨ x = .null ∨ x ∈ xs := by
  induction i generalizing xs with
  | zero =>
    cases xs with
    | nil => exact .inl (List.mem_singleton.mp h)
    | cons y xs => exact (List.mem_cons.mp h).imp_right fun old => .inr (List.mem_cons_of_mem _ old)
  | succ i ih =>
    cases xs with
    | nil =>
      rcases List.mem_cons.mp h with rfl | h
      · exact .inr (.inl rfl)
      · exact ih h
    | cons y xs =>
      rcases List.mem_cons.mp h with rfl | h
      · exact .inr (.inr List.mem_cons_self)
      · exact (ih h).imp_right fun old => old.imp_right (List.mem_cons_of_mem _)

theorem length_putItem (v : Json) (i : Nat) (xs : List Json) :
    (putItem v i xs).length = max xs.length (i + 1) := by
  induction i generalizing xs with
  | zero => cases xs <;> simp [putItem]
  | succ i ih => cases xs <;> simp [putItem, ih]

theorem index?_le {s : String} {i : Nat} (h : FieldPath.index? s = some i) :
    i ≤ FieldPath.lastIndex := by
  have digits (cs : List Char) (h : Text.digits? Text.wordBound cs = some i) :
      i < Text.wordBound := by
    unfold Text.digits? at h
    split at h
    · cases h
    · split at h
      · cases h
        assumption
      · cases h
  have bound : i < Text.wordBound := by
    unfold FieldPath.index? Text.natural? Text.naturalChars? at h
    split at h <;> exact digits _ h
  exact Nat.le_sub_one_of_lt bound

/-! ## Children of a container -/

namespace Proper

variable {t t' v : Json} {s : String}

theorem child? (h : t.Proper) (found : t.child? s = some v) : v.Proper := by
  cases h with
  | arr _ items =>
    obtain ⟨i, -, item⟩ := Option.bind_eq_some_iff.mp found
    exact items v (List.mem_of_getElem? item)
  | obj _ members => exact members _ (Assoc.mem_of_find? found)
  | _ => cases found

theorem follow? {q : List String} (h : t.Proper) (found : t.follow? q = some v) : v.Proper := by
  induction q generalizing t with
  | nil =>
    cases found
    exact h
  | cons s rest ih =>
    obtain ⟨c, first, others⟩ := Option.bind_eq_some_iff.mp found
    exact ih (h.child? first) others

theorem member (s : String) (h : v.Proper) : (Json.obj [(s, v)]).Proper :=
  .obj (List.pairwise_singleton _ _) (List.forall_mem_singleton.mpr h)

theorem item (h : v.Proper) : (Json.arr [v]).Proper :=
  .arr (show 1 ≤ FieldPath.lastIndex by decide) (List.forall_mem_singleton.mpr h)

theorem putChild? (h : t.Proper) (value : v.Proper) (put : t.putChild? s v = some t') :
    t'.Proper := by
  unfold Json.putChild? at put
  split at put
  · rename_i xs i index
    split at put
    · cases put
    · rename_i inner
      cases put
      cases h with
      | arr short items =>
        refine .arr ?_ ?_
        · have := index?_le index
          rw [length_putItem]
          omega
        · intro x inside
          rcases mem_putItem inside with rfl | rfl | old
          · exact value
          · exact .null
          · exact items x old
  · rename_i ms
    cases put
    cases h with
    | obj sorted members =>
      refine .obj sorted.insert ?_
      intro e inside
      rcases Assoc.mem_insert inside with rfl | old
      · exact value
      · exact members e old
  · cases put
    exact value.member s

end Proper

theorem ProperIn.child? {o : Option Json} (h : ProperIn o) (s : String) :
    ProperIn (o.bind fun t => t.child? s) := by
  intro c found
  obtain ⟨t, rfl, child⟩ := Option.bind_eq_some_iff.mp found
  exact (h t rfl).child? child

theorem putChild?_item {xs : List Json} {s : String} {i : Nat} (index : FieldPath.index? s = some i)
    (inner : i ≠ FieldPath.lastIndex) (v : Json) :
    (Json.arr xs).putChild? s v = some (.arr (putItem v i xs)) := by
  simp [putChild?, index, inner]

/-- `t'` is `t` with `v` in the place that `s` names, where `t` is of kind `k`. -/
structure Puts (k : Kind) (t : Json) (s : String) (v t' : Json) : Prop where
  kind : t'.kind? = some k
  here : ∀ s', k.SamePlace s s' → t'.child? s' = some v
  elsewhere : ∀ s', ¬ k.SamePlace s s' →
    t'.child? s' = t.child? s' ∨ t.child? s' = none ∧ t'.child? s' = some .null

theorem insert_puts (s : String) (v : Json) (ms : List (String × Json)) :
    Puts .object (.obj ms) s v (.obj (Assoc.insert s v ms)) := by
  refine ⟨rfl, ?_, ?_⟩
  · intro s' same
    cases same
    exact Assoc.find?_insert_self s v ms
  · intro s' other
    exact .inl (Assoc.find?_insert_ne other v ms)

theorem putItem_puts {s : String} {i : Nat} (index : FieldPath.index? s = some i) (v : Json)
    (xs : List Json) : Puts .list (.arr xs) s v (.arr (putItem v i xs)) := by
  refine ⟨rfl, fun s' same => ?_, fun s' other => ?_⟩
  · rw [child?, show FieldPath.index? s' = some i from same.symm.trans index]
    exact putItem_self v i xs
  · cases index' : FieldPath.index? s' with
    | none => exact .inl (by simp [child?, index'])
    | some j =>
      have apart : j ≠ i := fun same => other (index.trans (same ▸ index'.symm))
      simpa [child?, index'] using putItem_other apart v xs

/-- What is in a place after a write beside it. A list may have been filled up with `null`. -/
def Left (before after : Option Json) : Prop :=
  after = before ∨ before = none ∧ after = some .null

/-- In a container of a kind where the segment leads to something, it can be written at. -/
theorem putChild?_puts {k : Kind} {l t x : Json} {s : String} (proper : l.Proper)
    (live : l.kind? = some k) (kind : t.kind? = some k) (inside : l.child? s = some x) (v : Json) :
    ∃ t', t.putChild? s v = some t' ∧ Puts k t s v t' := by
  cases k with
  | object =>
    obtain ⟨ms, rfl⟩ := kind?_eq_object kind
    exact ⟨_, rfl, insert_puts s v ms⟩
  | list =>
    obtain ⟨xs, rfl⟩ := kind?_eq_list live
    obtain ⟨ys, rfl⟩ := kind?_eq_list kind
    obtain ⟨i, index, item⟩ := Option.bind_eq_some_iff.mp inside
    have within : i < xs.length := (List.getElem?_eq_some_iff.mp item).1
    have inner : i ≠ FieldPath.lastIndex := by
      cases proper with
      | arr short _ => omega
    exact ⟨_, putChild?_item index inner v, putItem_puts index v ys⟩

/-- A value put into a container takes the place that is named. But a list gives way to an object of
this value alone if the segment is no index. -/
theorem putChild?_cases {t t' v : Json} {k : Kind} {s : String} (kind : t.kind? = some k)
    (put : t.putChild? s v = some t') :
    Puts k t s v t' ∧ (k = .list → (FieldPath.index? s).isSome) ∨
      k = .list ∧ FieldPath.index? s = none ∧ t' = .obj [(s, v)] := by
  cases k with
  | object =>
    obtain ⟨ms, rfl⟩ := kind?_eq_object kind
    cases put
    exact .inl ⟨insert_puts s v ms, nofun⟩
  | list =>
    obtain ⟨xs, rfl⟩ := kind?_eq_list kind
    cases index : FieldPath.index? s with
    | none =>
      simp only [putChild?, index, Option.some.injEq] at put
      exact .inr ⟨rfl, rfl, put.symm⟩
    | some i =>
      simp only [putChild?, index, Option.ite_none_left_eq_some, Option.some.injEq] at put
      obtain ⟨-, rfl⟩ := put
      exact .inl ⟨putItem_puts index v xs, fun _ => rfl⟩

/-- A list that a segment names an index of does not give way. -/
theorem puts_of_index {t t' v : Json} {k : Kind} {s : String} (kind : t.kind? = some k)
    (index : k = .list → (FieldPath.index? s).isSome = true) (put : t.putChild? s v = some t') :
    Puts k t s v t' := by
  rcases putChild?_cases kind put with ⟨puts, -⟩ | ⟨list, none, -⟩
  · exact puts
  · simp [none] at index
    exact absurd list index

theorem putChild?_here {t t' v : Json} {k : Kind} {s : String} (kind : t.kind? = some k)
    (put : t.putChild? s v = some t') : t'.child? s = some v := by
  rcases putChild?_cases kind put with ⟨puts, -⟩ | ⟨-, -, rfl⟩
  · exact puts.here s (by cases k <;> rfl)
  · exact if_pos rfl

theorem putChild?_found {l x : Json} {s : String} (proper : l.Proper)
    (inside : l.child? s = some x) : l.putChild? s x = some l := by
  cases proper with
  | @arr xs short _ =>
    obtain ⟨i, index, item⟩ := Option.bind_eq_some_iff.mp inside
    have within : i < xs.length := (List.getElem?_eq_some_iff.mp item).1
    have inner : i ≠ FieldPath.lastIndex := by omega
    rw [putChild?_item index inner, putItem_found item]
  | obj sorted _ => exact congrArg (some ∘ Json.obj) (sorted.insert_found inside)
  | _ => cases inside

/-! ## Writes -/

theorem containerFor_kind (next : String) (o : Option Json) :
    ∃ k, (containerFor next o).kind? = some k := by
  unfold containerFor
  split
  · exact ⟨.object, rfl⟩
  · exact ⟨.list, rfl⟩
  · split
    · exact ⟨.list, rfl⟩
    · exact ⟨.object, rfl⟩

theorem containerFor_of_kind? {t : Json} {k : Kind} (h : t.kind? = some k) (next : String) :
    containerFor next (some t) = t := by
  cases t with
  | obj | arr => rfl
  | _ => cases h

theorem Proper.containerFor {o : Option Json} (h : ∀ t, o = some t → t.Proper) (next : String) :
    (containerFor next o).Proper := by
  unfold Json.containerFor
  split
  · exact h _ rfl
  · exact h _ rfl
  · split
    · exact .arr (Nat.zero_le _) (by simp)
    · exact .obj .nil (by simp)

theorem Proper.write? {t t' v : Json} {path : List String} (h : t.Proper) (value : v.Proper)
    (written : t.write? path v = some t') : t'.Proper := by
  induction path generalizing t t' with
  | nil =>
    cases written
    exact h
  | cons s rest ih =>
    cases rest with
    | nil => exact h.putChild? value written
    | cons next rest =>
      obtain ⟨c, below, put⟩ := Option.bind_eq_some_iff.mp written
      exact h.putChild? (ih (.containerFor (fun c found => h.child? found) next) below) put

/-- An object stays an object. -/
theorem write?_object {t t' v : Json} {path : List String} (h : t.kind? = some .object)
    (written : t.write? path v = some t') : t'.kind? = some .object := by
  obtain ⟨ms, rfl⟩ := kind?_eq_object h
  match path with
  | [] | [s] =>
    cases written
    rfl
  | s :: next :: rest =>
    obtain ⟨c, -, put⟩ := Option.bind_eq_some_iff.mp written
    cases put
    rfl

end Json

end LiveForm
