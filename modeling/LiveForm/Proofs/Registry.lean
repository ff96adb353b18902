import Mathlib.Data.List.Induction
import Mathlib.Data.List.Lex
import Mathlib.Order.RelIso.Basic
import LiveForm.Proofs.Assoc
import LiveForm.Registry

/-!
# What a registry has after a history

Fields register and unregister in any order, and are dropped when they do not fit values that arrive.

* `Registry.Operation`, `Registry.obey`, `Registry.after`: what is done to a registry, and what it has
  then;
* `Registry.Operation.Gives`, `Registry.Operation.Removes`: the operations that matter to a path;
* `Registry.find?_gives`, `Registry.find?_removes`, `Registry.find?_idle`: what one operation does to
  what is registered at a path;
* `Registry.after_sorted`: fields stand in the order of their paths;
* `registry_history`: so what is registered at a path is told by the registrations since it was
  removed.
-/

set_option autoImplicit false

namespace LiveForm

/-- Paths are ordered as their segments are. -/
def FieldPath.byOrder : ((· < ·) : FieldPath → FieldPath → Prop) ↪r
    ((· < ·) : List String → List String → Prop) where
  toFun := FieldPath.segments
  inj' := by
    rintro ⟨a⟩ ⟨b⟩ same
    exact congrArg FieldPath.mk same
  map_rel_iff' := Iff.rfl

instance : IsStrictTotalOrder FieldPath (· < ·) := FieldPath.byOrder.isStrictTotalOrder

namespace Registry

inductive Operation (ℓ η : Type) where
  | register (p : FieldPath) (new : Field ℓ η) (schema : Json)
  | unregister (paths : Option (List FieldPath))
  | retain (schema : Json)

variable {ℓ η : Type}

/-- A registration that is refused is as if it had not been asked for. -/
def obey (r : Registry ℓ η) : Operation ℓ η → Registry ℓ η
  | .register p new schema =>
    match r.register p new schema with
    | .ok r' => r'
    | .error _ => r
  | .unregister (some paths) => r.unregister paths
  | .unregister none => .empty
  | .retain schema => r.retainFitting schema

/-- The registry after a history that starts with nothing registered. -/
def after (history : List (Operation ℓ η)) : Registry ℓ η := history.foldl obey .empty

namespace Operation

/-- A field is registered at the path, where it fits. -/
def Gives (p : FieldPath) (new : Field ℓ η) (x : Operation ℓ η) : Prop :=
  ∃ schema, x = .register p new schema ∧ fits schema p = true

def Removes (p : FieldPath) : Operation ℓ η → Prop
  | .register _ _ _ => False
  | .unregister (some paths) => p ∈ paths
  | .unregister none => True
  | .retain schema => fits schema p = false

end Operation

section

variable {r : Registry ℓ η} {p q : FieldPath} {new : Field ℓ η} {schema : Json}
  {x : Operation ℓ η} {history : List (Operation ℓ η)}

theorem after_concat (history : List (Operation ℓ η)) (x : Operation ℓ η) :
    after (history ++ [x]) = (after history).obey x := by
  rw [after, List.foldl_append]
  rfl

theorem isRegistered_iff : r.isRegistered p = true ↔ ∃ field, r.find? p = some field :=
  Option.isSome_iff_exists

/-! ## One operation -/

theorem find?_unregister (r : Registry ℓ η) (paths : List FieldPath) (p : FieldPath) :
    (r.unregister paths).find? p = if p ∈ paths then none else r.find? p := by
  unfold unregister find?
  generalize r.fields = fields
  induction paths generalizing fields with
  | nil => rfl
  | cons q rest ih =>
    rw [List.foldl_cons, ih]
    by_cases later : p ∈ rest
    · rw [if_pos later, if_pos (List.mem_cons_of_mem _ later)]
    · by_cases same : q = p
      · subst same
        rw [if_neg later, if_pos List.mem_cons_self, Assoc.find?_erase_self]
      · have apart : p ∉ q :: rest := by simp [later, Ne.symm same]
        rw [if_neg later, if_neg apart, Assoc.find?_erase_ne same]

theorem mem_misfits : p ∈ r.misfits schema ↔ r.isRegistered p = true ∧ fits schema p = false := by
  rw [misfits, List.mem_filter, Assoc.mem_keys_iff, isRegistered_iff]
  simp [find?]

theorem register_ok (fit : fits schema p = true) :
    r.register p new schema =
      .ok ⟨Assoc.insert p { new with listener := new.listener <|> r.listener? p } r.fields⟩ :=
  if_pos fit

theorem register_error (misfit : fits schema p = false) :
    r.register p new schema = .error (.unknownField p.display) := by
  rw [register, misfit]
  rfl

/-- A registration brings its rules and its hook, and its listener if it has one. -/
theorem find?_gives (gives : x.Gives p new) :
    (r.obey x).find? p = some { new with listener := new.listener <|> r.listener? p } := by
  obtain ⟨schema, rfl, fit⟩ := gives
  rw [obey, register_ok fit]
  exact Assoc.find?_insert_self _ _ _

theorem find?_removes (removes : x.Removes p) : (r.obey x).find? p = none := by
  cases x with
  | register q new schema => cases removes
  | unregister paths =>
    cases paths with
    | none => rfl
    | some paths => exact (r.find?_unregister paths p).trans (if_pos removes)
  | retain schema =>
    rw [obey, retainFitting, find?_unregister]
    split
    · rfl
    · rename_i kept
      cases found : r.find? p with
      | none => rfl
      | some field =>
        exact absurd (mem_misfits.mpr ⟨isRegistered_iff.mpr ⟨field, found⟩, removes⟩) kept

/-- An operation that neither registers a path nor removes it leaves it as it is. -/
theorem find?_idle (gives : ∀ new, ¬ x.Gives p new) (removes : ¬ x.Removes p) :
    (r.obey x).find? p = r.find? p := by
  cases x with
  | register q new schema =>
    cases fit : fits schema q with
    | false => rw [obey, register_error fit]
    | true =>
      have apart : q ≠ p := by
        rintro rfl
        exact gives new ⟨schema, rfl, fit⟩
      rw [obey, register_ok fit]
      exact Assoc.find?_insert_ne apart _ _
  | unregister paths =>
    cases paths with
    | none => exact absurd trivial removes
    | some paths => exact (r.find?_unregister paths p).trans (if_neg removes)
  | retain schema =>
    rw [obey, retainFitting, find?_unregister, if_neg]
    intro misfit
    exact removes (mem_misfits.mp misfit).2

theorem obey_refused (misfit : fits schema p = false) : r.obey (.register p new schema) = r := by
  rw [obey, register_error misfit]

/-! ## The order of the fields -/

theorem sorted_unregister (h : Assoc.Sorted r.fields) (paths : List FieldPath) :
    Assoc.Sorted (r.unregister paths).fields := by
  unfold unregister
  generalize r.fields = fields at h
  induction paths generalizing fields with
  | nil => exact h
  | cons p rest ih => exact ih _ h.erase

theorem sorted_obey (h : Assoc.Sorted r.fields) (x : Operation ℓ η) :
    Assoc.Sorted (r.obey x).fields := by
  cases x with
  | register p new schema =>
    cases fit : fits schema p with
    | true =>
      rw [obey, register_ok fit]
      exact h.insert
    | false =>
      rw [obey_refused fit]
      exact h
  | unregister paths =>
    cases paths with
    | none => exact List.Pairwise.nil
    | some paths => exact sorted_unregister h paths
  | retain schema => exact sorted_unregister h _

theorem after_sorted (history : List (Operation ℓ η)) : Assoc.Sorted (after history).fields := by
  induction history using List.reverseRecOn with
  | nil => exact List.Pairwise.nil
  | append_singleton earlier x ih =>
    rw [after_concat]
    exact sorted_obey ih x

theorem misfits_sorted (h : Assoc.Sorted r.fields) (schema : Json) :
    (r.misfits schema).Pairwise (· < ·) :=
  (List.pairwise_map.mpr h).filter _

/-- A path has the listener that is found there. -/
theorem mem_listeners (h : Assoc.Sorted r.fields) {l : ℓ} :
    (p, l) ∈ r.listeners ↔ r.listener? p = some l := by
  rw [listeners, List.mem_filterMap, listener?, Option.bind_eq_some_iff]
  constructor
  · rintro ⟨⟨q, field⟩, inside, found⟩
    obtain ⟨l', brings, same⟩ := Option.map_eq_some_iff.mp found
    cases same
    exact ⟨field, h.find?_eq_some.mpr inside, brings⟩
  · rintro ⟨field, found, brings⟩
    exact ⟨(p, field), Assoc.mem_of_find? found, by simp [brings]⟩

theorem listeners_sorted (h : Assoc.Sorted r.fields) : r.listeners.Pairwise fun a b => a.1 < b.1 := by
  apply h.filterMap
  rintro ⟨p, field⟩ ⟨q, field'⟩ before x found y found'
  obtain ⟨l, -, rfl⟩ := Option.map_eq_some_iff.mp found
  obtain ⟨l', -, rfl⟩ := Option.map_eq_some_iff.mp found'
  exact before

/-! ## Histories -/

/-- Something has happened for which the first holds, and the second holds of all that came after. -/
def Since {α : Type} (P Q : α → Prop) (history : List α) : Prop :=
  ∃ earlier x later, history = earlier ++ x :: later ∧ P x ∧ ∀ y ∈ later, Q y

theorem since_concat {α : Type} {P Q : α → Prop} {history : List α} {x : α} :
    Since P Q (history ++ [x]) ↔ P x ∨ (Q x ∧ Since P Q history) := by
  constructor
  · rintro ⟨earlier, y, later, split, holds, kept⟩
    rcases List.eq_nil_or_concat later with rfl | ⟨later, z, rfl⟩
    · obtain ⟨-, same⟩ := List.append_inj' split rfl
      cases same
      exact .inl holds
    · rw [List.concat_eq_append, ← List.cons_append, ← List.append_assoc] at split
      obtain ⟨rfl, same⟩ := List.append_inj' split rfl
      cases same
      rw [List.concat_eq_append] at kept
      exact .inr ⟨kept x (List.mem_append_right _ List.mem_cons_self), earlier, y, later, rfl, holds,
        fun w inside => kept w (List.mem_append_left _ inside)⟩
  · rintro (holds | ⟨last, earlier, y, later, rfl, holds, kept⟩)
    · exact ⟨history, x, [], rfl, holds, nofun⟩
    · refine ⟨earlier, y, later ++ [x], by simp, holds, fun w inside => ?_⟩
      rcases List.mem_append.mp inside with inside | inside
      · exact kept w inside
      · rw [List.mem_singleton.mp inside]
        exact last

/-- What operations bring about, and keep or undo, is there if it was brought about and kept since. -/
theorem after_since {S : Registry ℓ η → Prop} {P Q : Operation ℓ η → Prop} (start : ¬ S .empty)
    (step : ∀ r x, S (r.obey x) ↔ P x ∨ (Q x ∧ S r)) (history : List (Operation ℓ η)) :
    S (after history) ↔ Since P Q history := by
  induction history using List.reverseRecOn with
  | nil =>
    refine iff_of_false start ?_
    rintro ⟨earlier, x, later, split, -⟩
    simp at split
  | append_singleton earlier x ih => rw [after_concat, step, since_concat, ih]

/-- To a path an operation is a registration, a removal or nothing. -/
theorem Operation.matters (x : Operation ℓ η) (p : FieldPath) :
    (∃ new, (∀ other, x.Gives p other ↔ other = new) ∧ ¬ x.Removes p) ∨
    (x.Removes p ∧ ∀ new, ¬ x.Gives p new) ∨ (¬ x.Removes p ∧ ∀ new, ¬ x.Gives p new) := by
  by_cases gives : ∃ new, x.Gives p new
  · obtain ⟨new, schema, rfl, fit⟩ := gives
    refine .inl ⟨new, fun other => ⟨?_, ?_⟩, id⟩
    · rintro ⟨_, same, -⟩
      cases same
      rfl
    · rintro rfl
      exact ⟨schema, rfl, fit⟩
  · have none : ∀ new, ¬ x.Gives p new := fun new gives' => gives ⟨new, gives'⟩
    by_cases removes : x.Removes p
    · exact .inr (.inl ⟨removes, none⟩)
    · exact .inr (.inr ⟨removes, none⟩)

theorem isRegistered_obey (r : Registry ℓ η) (x : Operation ℓ η) :
    (r.obey x).isRegistered p = true ↔
      (∃ new, x.Gives p new) ∨ (¬ x.Removes p ∧ r.isRegistered p = true) := by
  rw [isRegistered_iff, isRegistered_iff]
  rcases x.matters p with ⟨new, gives, -⟩ | ⟨removes, none⟩ | ⟨kept, none⟩
  · rw [find?_gives ((gives new).mpr rfl)]
    exact iff_of_true ⟨_, rfl⟩ (.inl ⟨new, (gives new).mpr rfl⟩)
  · rw [find?_removes removes]
    simp [none, removes]
  · rw [find?_idle none kept]
    simp [none, kept]

theorem listener?_obey (r : Registry ℓ η) (x : Operation ℓ η) (l : ℓ) :
    (r.obey x).listener? p = some l ↔
      (∃ new, x.Gives p new ∧ new.listener = some l) ∨
      ((¬ x.Removes p ∧ ∀ new, x.Gives p new → new.listener = none) ∧ r.listener? p = some l) := by
  rw [listener?]
  rcases x.matters p with ⟨new, gives, kept⟩ | ⟨removes, none⟩ | ⟨kept, none⟩
  · rw [find?_gives ((gives new).mpr rfl), Option.bind_some]
    cases brings : new.listener <;> simp [gives, kept, brings]
  · rw [find?_removes removes]
    simp [none, removes]
  · rw [find?_idle none kept]
    simp [none, kept, listener?]

theorem attached_obey (r : Registry ℓ η) (x : Operation ℓ η) (rules : List Rule) (hook : Option η) :
    (∃ field, (r.obey x).find? p = some field ∧ field.rules = rules ∧ field.hook = hook) ↔
      (∃ new, x.Gives p new ∧ new.rules = rules ∧ new.hook = hook) ∨
      ((¬ x.Removes p ∧ ∀ new, ¬ x.Gives p new) ∧
        ∃ field, r.find? p = some field ∧ field.rules = rules ∧ field.hook = hook) := by
  rcases x.matters p with ⟨new, gives, kept⟩ | ⟨removes, none⟩ | ⟨kept, none⟩
  · rw [find?_gives ((gives new).mpr rfl)]
    simp [gives, kept]
  · rw [find?_removes removes]
    simp [none, removes]
  · rw [find?_idle none kept]
    simp [none, kept]

theorem register_ok_iff : (∃ r', r.register p new schema = .ok r') ↔ fits schema p = true := by
  constructor
  · rintro ⟨r', registered⟩
    by_contra misfit
    rw [register_error (Bool.eq_false_of_not_eq_true misfit)] at registered
    cases registered
  · exact fun fit => ⟨_, register_ok fit⟩

theorem register_error_iff {e : FormError} :
    r.register p new schema = .error e ↔ fits schema p = false ∧ e = .unknownField p.display := by
  cases fit : fits schema p with
  | true => simp [register_ok fit]
  | false => simp [register_error fit, eq_comm]

end

end Registry

open Registry

/-- After any history a path is registered if it has been and was not removed since. Its listener is
the last that a registration gave since it was removed, and its rules and its hook are those of its
last registration. A registration that is refused changes nothing. When values arrive, the fields
are dropped that would be refused from then on, and all others stay as they are. -/
theorem registry_history {ℓ η : Type} (history : List (Operation ℓ η)) :
    (∀ p, (after history).isRegistered p = true ↔
      Since (fun x => ∃ new, x.Gives p new) (fun x => ¬ x.Removes p) history) ∧
    (∀ p l, (after history).listener? p = some l ↔
      Since (fun x => ∃ new, x.Gives p new ∧ new.listener = some l)
        (fun x => ¬ x.Removes p ∧ ∀ new, x.Gives p new → new.listener = none) history) ∧
    (∀ p rules hook,
      (∃ field, (after history).find? p = some field ∧ field.rules = rules ∧ field.hook = hook) ↔
      Since (fun x => ∃ new, x.Gives p new ∧ new.rules = rules ∧ new.hook = hook)
        (fun x => ¬ x.Removes p ∧ ∀ new, ¬ x.Gives p new) history) ∧
    (∀ p new schema,
      ((∃ r, (after history).register p new schema = .ok r) ↔
        (Operation.register p new schema).Gives p new) ∧
      ∀ e, (after history).register p new schema = .error e →
        e = .unknownField p.display ∧ after (history ++ [.register p new schema]) = after history) ∧
    ∀ schema, ((after history).misfits schema).Pairwise (· < ·) ∧
      ∀ p, (p ∈ (after history).misfits schema ↔ (after history).isRegistered p = true ∧
          ∀ new, ∃ e, (after history).register p new schema = .error e) ∧
        ((after history).retainFitting schema).find? p =
          if p ∈ (after history).misfits schema then none else (after history).find? p := by
  refine ⟨fun p => ?_, fun p l => ?_, fun p rules hook => ?_,
    fun p new schema => ⟨?_, fun e refused => ?_⟩,
    fun schema => ⟨misfits_sorted (after_sorted history) schema, fun p => ⟨?_, ?_⟩⟩⟩
  · exact after_since (S := fun r => r.isRegistered p = true) nofun isRegistered_obey history
  · exact after_since (S := fun r => r.listener? p = some l) nofun
      (fun r x => listener?_obey r x l) history
  · exact after_since (S := fun r => ∃ field, r.find? p = some field ∧ field.rules = rules ∧
      field.hook = hook) nofun (fun r x => attached_obey r x rules hook) history
  · rw [register_ok_iff]
    constructor
    · exact fun fit => ⟨schema, rfl, fit⟩
    · rintro ⟨_, same, fit⟩
      cases same
      exact fit
  · obtain ⟨misfit, message⟩ := register_error_iff.mp refused
    exact ⟨message, (after_concat _ _).trans (obey_refused misfit)⟩
  · rw [mem_misfits]
    refine and_congr_right fun _ => ⟨fun misfit new => ⟨_, register_error misfit⟩, fun refused => ?_⟩
    obtain ⟨e, refused⟩ := refused ⟨none, [], none⟩
    exact (register_error_iff.mp refused).1
  · exact find?_unregister _ _ _

/-- A field that registers again after it was removed does not get its old listener back. -/
example : (after [.register ⟨["title"]⟩ ⟨some "save", [], none⟩ .null, .unregister none,
    .register ⟨["title"]⟩ ⟨none, [], none⟩ .null] : Registry String Unit).listener? ⟨["title"]⟩ =
      none := by
  decide

end LiveForm
