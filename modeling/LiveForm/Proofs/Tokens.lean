import Mathlib.Data.List.Nodup
import LiveForm.GuardTable
import LiveForm.Proofs.Assoc

/-!
# Guards and their tokens

Handles of one guard share what is held of it. Tokens are taken and given back in any order, also by
acts that fail.

* `GuardTable.Operation`, `GuardTable.obey`: all that can be done with guards and tokens;
* `Taking`, `GuardTable.record`: the tokens that were taken, in their order, and which of them are
  still held;
* `GuardTable.Counts`, `GuardTable.Names`: each guard counts its tokens, and each name has the token
  that was taken under it last;
* `guard_tokens`: so a guard holds the tokens of its family that were not given back, and a token that
  is given back leaves all others alone.
-/

set_option autoImplicit false

namespace LiveForm

/-- A token that was taken, of the guard at a place. An act that fails takes one without a name. -/
structure Taking where
  place : Nat
  id : Nat
  token : Option String
  message : String
  held : Bool

namespace Taking

/-- What the guard has of a token. -/
def entry (x : Taking) : Nat × String := (x.id, x.message)

/-- Nothing is held any more under a name. -/
def drop (token : String) (x : Taking) : Taking :=
  if x.token = some token then { x with held := false } else x

/-- The tokens of one guard, and of all its handles. -/
def family (place : Nat) (all : List Taking) : List Taking := all.filter fun x => x.place = place

/-- The tokens of one guard that are still held. -/
def alive (place : Nat) (all : List Taking) : List Taking := (family place all).filter Taking.held

end Taking

namespace GuardTable

/-- What can be done with guards and tokens. The first use of a handle makes its guard, and a handle
that is known already stands for the guard that it stood for. -/
inductive Operation where
  | mention (name : String)
  | clone (name copy : String)
  | acquire (name token message : String)
  | release (token : String)
  | duringFailure (name message : String)

def obey (t : GuardTable) : Operation → GuardTable
  | .mention name => t.mention name
  | .clone name copy => t.clone name copy
  | .acquire name token message => (t.acquire name token message).1
  | .release token => (t.release token).1
  | .duringFailure name message => (t.duringFailure name message).1

/-- The place of a handle's guard, and the id that the guard gives next. -/
def nextToken (t : GuardTable) (name : String) : Nat × Nat :=
  ((t.place name).2, ((t.place name).1.guardAt (t.place name).2).nextId)

/-- The tokens taken so far, with what an operation does to them. A name holds one token, so what was
taken under it before goes back. -/
def record (t : GuardTable) (all : List Taking) : Operation → List Taking
  | .acquire name token message =>
    all.map (Taking.drop token) ++
      [⟨(t.nextToken name).1, (t.nextToken name).2, some token, message, true⟩]
  | .release token => all.map (Taking.drop token)
  | .duringFailure name message =>
    all ++ [⟨(t.nextToken name).1, (t.nextToken name).2, none, message, false⟩]
  | _ => all

/-- Tables that operations bring about, with the tokens they have taken. -/
inductive Reached : GuardTable → List Taking → Prop where
  | start : Reached .empty []
  | step {t : GuardTable} {all : List Taking} (x : Operation) :
      Reached t all → Reached (t.obey x) (t.record all x)

/-! ## Places -/

section Places

variable {t : GuardTable} {g : UnloadGuard} {spot : Nat} {name token : String}

theorem guardAt_put (inside : spot < t.guards.length) (other : Nat) :
    (t.put spot g).guardAt other = if other = spot then g else t.guardAt other := by
  unfold put guardAt
  by_cases same : other = spot
  · simp [same, List.getElem?_set_self inside]
  · rw [List.getElem?_set_ne (Ne.symm same), if_neg same]

/-- A guard that is made is a new one, as guards are that are not there. -/
theorem place_guardAt (t : GuardTable) (name : String) (place : Nat) :
    (t.place name).1.guardAt place = t.guardAt place := by
  unfold GuardTable.place
  split
  · rfl
  · unfold guardAt
    rw [List.getElem?_append]
    split
    · rfl
    · rename_i behind
      rw [List.getElem?_eq_none (Nat.le_of_not_lt behind)]
      cases place - t.guards.length <;> simp

theorem place_tokens (t : GuardTable) (name : String) : (t.place name).1.tokens = t.tokens := by
  unfold GuardTable.place
  split <;> rfl

theorem place_handle (t : GuardTable) (name : String) :
    Assoc.find? name (t.place name).1.handles = some (t.place name).2 := by
  unfold GuardTable.place
  split
  · assumption
  · exact Assoc.find?_insert_self _ _ _

theorem guard_eq (t : GuardTable) (name : String) :
    t.guard name = t.guardAt (t.place name).2 := by
  unfold guard GuardTable.place
  split
  · rename_i known
    simp [known]
  · rename_i unknown
    simp [unknown, guardAt]

/-- Each handle stands for a guard that is there. -/
def Bounded (t : GuardTable) : Prop :=
  ∀ name place, Assoc.find? name t.handles = some place → place < t.guards.length

theorem Bounded.insert (h : t.Bounded) (inside : spot < t.guards.length) :
    Bounded { t with handles := Assoc.insert name spot t.handles } := by
  intro other there found
  by_cases same : name = other
  · subst same
    rw [Assoc.find?_insert_self] at found
    exact Option.some.inj found ▸ inside
  · rw [Assoc.find?_insert_ne same] at found
    exact h other there found

theorem Bounded.place (h : t.Bounded) (name : String) : (t.place name).1.Bounded := by
  unfold GuardTable.place
  split
  · exact h
  · have wider : Bounded { t with guards := t.guards ++ [.new] } := by
      intro other there found
      rw [List.length_append]
      exact Nat.lt_add_right _ (h other there found)
    exact wider.insert (by simp)

theorem Bounded.inside (h : t.Bounded) (name : String) :
    (t.place name).2 < (t.place name).1.guards.length :=
  h.place name name _ (t.place_handle name)

theorem Bounded.put (h : t.Bounded) : (t.put spot g).Bounded := by
  intro name there found
  rw [GuardTable.put, List.length_set]
  exact h name there found

end Places

/-! ## What guards count -/

/-- Each guard has given out the ids from zero on, one after another, and has what is held of it. -/
structure Counts (t : GuardTable) (all : List Taking) : Prop where
  ids : ∀ place, (Taking.family place all).map Taking.id = List.range (t.guardAt place).nextId
  active : ∀ place, (t.guardAt place).active = (Taking.alive place all).map Taking.entry

/-- Each name has the token that is held under it. -/
def Names (t : GuardTable) (all : List Taking) : Prop :=
  ∀ token place id, Assoc.find? token t.tokens = some (place, id) ↔
    ∃ x ∈ all, x.token = some token ∧ x.held = true ∧ x.place = place ∧ x.id = id

section Counts

variable {t t' : GuardTable} {g : UnloadGuard} {all : List Taking} {x y : Taking} {place id : Nat}
  {token message : String}

theorem Counts.congr (h : t.Counts all) (same : ∀ place, t'.guardAt place = t.guardAt place) :
    t'.Counts all := by
  constructor
  · intro place
    rw [same]
    exact h.ids place
  · intro place
    rw [same]
    exact h.active place

theorem mem_family : x ∈ Taking.family place all ↔ x ∈ all ∧ x.place = place := by
  simp [Taking.family]

theorem mem_alive : x ∈ Taking.alive place all ↔ x ∈ all ∧ x.place = place ∧ x.held = true := by
  simp [Taking.alive, mem_family, and_assoc]

theorem Counts.old (h : t.Counts all) (inside : x ∈ all) : x.id < (t.guardAt x.place).nextId := by
  have given : x.id ∈ (Taking.family x.place all).map Taking.id :=
    List.mem_map_of_mem (mem_family.mpr ⟨inside, rfl⟩)
  rw [h.ids] at given
  exact List.mem_range.mp given

/-- Of one guard there is one token with an id. -/
theorem Counts.unique (h : t.Counts all) (inside : x ∈ all) (inside' : y ∈ all)
    (place : x.place = y.place) (id : x.id = y.id) : x = y := by
  have once : ((Taking.family y.place all).map Taking.id).Nodup := by
    rw [h.ids]
    exact List.nodup_range
  exact List.inj_on_of_nodup_map once (mem_family.mpr ⟨inside, place⟩)
    (mem_family.mpr ⟨inside', rfl⟩) id

/-- Tokens come from guards that are there. -/
theorem Counts.inside (h : t.Counts all) (inside : x ∈ all) : x.place < t.guards.length := by
  have old := h.old inside
  by_contra outside
  rw [guardAt, List.getElem?_eq_none (Nat.le_of_not_lt outside)] at old
  exact Nat.not_lt_zero _ old

/-- A token is taken, and it may have been given back already. -/
theorem Counts.take (h : t.Counts all) (inside : x.place < t.guards.length)
    (next : x.id = (t.guardAt x.place).nextId) (given : g.nextId = x.id + 1)
    (active : g.active = (t.guardAt x.place).active ++ ([x].filter Taking.held).map Taking.entry) :
    (t.put x.place g).Counts (all ++ [x]) := by
  constructor
  · intro place
    rw [guardAt_put inside, Taking.family, List.filter_append, List.map_append, ← Taking.family,
      h.ids]
    by_cases same : place = x.place
    · simp [same, given, next, List.range_succ]
    · simp [same, Ne.symm same]
  · intro place
    rw [guardAt_put inside, Taking.alive, Taking.family, List.filter_append, List.filter_append,
      List.map_append, ← Taking.family, ← Taking.alive, ← h.active]
    by_cases same : place = x.place
    · have own : [x].filter (fun y => decide (y.place = x.place)) = [x] := by simp
      rw [if_pos same, active, same, own]
    · simp [same, Ne.symm same]

/-- A token that is taken and given back at once moves the next id, and leaves all else. -/
theorem Counts.guardAt_brief (h : t.Counts all) (inside : place < t.guards.length)
    (message : String) (other : Nat) :
    ((t.put place ((t.guardAt place).acquire message)).drop place (t.guardAt place).nextId).guardAt
        other =
      if other = place then { t.guardAt place with nextId := (t.guardAt place).nextId + 1 }
      else t.guardAt other := by
  have older : ∀ e ∈ (t.guardAt place).active, e.1 ≠ (t.guardAt place).nextId := by
    rw [h.active]
    intro e member
    obtain ⟨x, alive, rfl⟩ := List.mem_map.mp member
    obtain ⟨taken, rfl, -⟩ := mem_alive.mp alive
    exact Nat.ne_of_lt (h.old taken)
  have kept : (t.guardAt place).active.filter (fun e => decide (e.1 ≠ (t.guardAt place).nextId)) =
      (t.guardAt place).active :=
    List.filter_eq_self.mpr fun e member => decide_eq_true (older e member)
  have inside' : place < (t.put place ((t.guardAt place).acquire message)).guards.length := by
    rw [GuardTable.put, List.length_set]
    exact inside
  rw [GuardTable.drop, guardAt_put inside', guardAt_put inside, guardAt_put inside, if_pos rfl]
  split
  · rw [UnloadGuard.acquire, UnloadGuard.release, List.filter_append, kept]
    simp
  · rfl

theorem Counts.brief (h : t.Counts all) (inside : place < t.guards.length) (message : String) :
    ((t.put place ((t.guardAt place).acquire message)).drop place (t.guardAt place).nextId).Counts
      (all ++ [⟨place, (t.guardAt place).nextId, none, message, false⟩]) := by
  have taken := h.take (x := ⟨place, (t.guardAt place).nextId, none, message, false⟩)
    (g := { t.guardAt place with nextId := (t.guardAt place).nextId + 1 }) inside rfl rfl
    (List.append_nil _).symm
  refine taken.congr fun other => ?_
  rw [h.guardAt_brief inside, guardAt_put inside]

/-- Names do not matter to the guards. -/
theorem Counts.call (h : t.Counts (all ++ [x])) (token : Option String) :
    t.Counts (all ++ [{ x with token := token }]) := by
  have ids := h.ids
  have active := h.active
  simp only [Taking.alive, Taking.family, List.filter_append, List.map_append] at ids active
  constructor
  · intro place
    rw [← ids, Taking.family, List.filter_append, List.map_append]
    by_cases same : x.place = place <;> simp [same]
  · intro place
    rw [active, Taking.alive, Taking.family, List.filter_append, List.filter_append, List.map_append]
    by_cases same : x.place = place <;> cases held : x.held <;> simp [same, held, Taking.entry]

theorem family_drop (place : Nat) (token : String) (all : List Taking) :
    Taking.family place (all.map (Taking.drop token)) =
      (Taking.family place all).map (Taking.drop token) := by
  rw [Taking.family, Taking.family, List.filter_map]
  congr 2
  funext x
  simp only [Function.comp_apply, Taking.drop]
  split <;> rfl

theorem alive_drop (place : Nat) (token : String) (all : List Taking) :
    Taking.alive place (all.map (Taking.drop token)) =
      (Taking.alive place all).filter fun x => x.token ≠ some token := by
  rw [Taking.alive, Taking.alive, family_drop]
  induction Taking.family place all with
  | nil => rfl
  | cons x rest ih =>
    rw [List.map_cons, List.filter_cons, List.filter_cons, ih]
    by_cases named : x.token = some token <;> cases held : x.held <;>
      simp [Taking.drop, named, held]

/-- What is held under a name goes back, and it is one token of the guard. -/
theorem Counts.drop (h : t.Counts all) (inside : place < t.guards.length)
    (under : ∀ x ∈ all, x.held = true → (x.token = some token ↔ x.place = place ∧ x.id = id)) :
    (t.drop place id).Counts (all.map (Taking.drop token)) := by
  have under : ∀ other, ∀ x ∈ Taking.alive other all,
      (x.token = some token ↔ other = place ∧ x.id = id) := by
    intro other x member
    obtain ⟨taken, rfl, held⟩ := mem_alive.mp member
    exact under x taken held
  constructor
  · intro other
    have ids : (Taking.family other (all.map (Taking.drop token))).map Taking.id =
        (Taking.family other all).map Taking.id := by
      rw [family_drop, List.map_map]
      congr 1
      funext x
      simp only [Function.comp_apply, Taking.drop]
      split <;> rfl
    rw [ids, h.ids, GuardTable.drop, guardAt_put inside]
    split
    · rename_i same
      rw [same, UnloadGuard.release]
    · rfl
  · intro other
    rw [alive_drop, GuardTable.drop, guardAt_put inside]
    split
    · rename_i same
      have kept : (Taking.alive other all).filter ((fun e => decide (e.1 ≠ id)) ∘ Taking.entry) =
          (Taking.alive other all).filter (fun x => decide (x.token ≠ some token)) := by
        refine List.filter_congr fun x member => ?_
        rw [Function.comp_apply, decide_eq_decide, ne_eq, ne_eq, under other x member]
        simp [Taking.entry, same]
      rw [← same, ← kept, ← List.filter_map, ← h.active]
      rfl
    · rename_i apart
      have kept : (Taking.alive other all).filter (fun x => x.token ≠ some token) =
          Taking.alive other all := by
        rw [List.filter_eq_self]
        intro x member
        exact decide_eq_true fun named => apart ((under other x member).mp named).1
      rw [h.active, kept]

theorem mem_drop : x ∈ all.map (Taking.drop token) ∧ x.held = true ↔
    x ∈ all ∧ x.held = true ∧ x.token ≠ some token := by
  constructor
  · rintro ⟨inside, held⟩
    obtain ⟨y, before, rfl⟩ := List.mem_map.mp inside
    unfold Taking.drop at held ⊢
    split
    · rename_i named
      rw [if_pos named] at held
      cases held
    · rename_i other
      rw [if_neg other] at held
      exact ⟨before, held, other⟩
  · rintro ⟨inside, held, other⟩
    exact ⟨List.mem_map.mpr ⟨x, inside, if_neg other⟩, held⟩

/-- A name under which nothing is held has nothing to give back. -/
theorem map_drop (free : ∀ x ∈ all, x.token = some token → x.held = false) :
    all.map (Taking.drop token) = all := by
  have kept : ∀ x ∈ all, Taking.drop token x = x := by
    intro x inside
    unfold Taking.drop
    split
    · rename_i named
      rw [← free x inside named]
    · rfl
  exact (List.map_congr_left kept).trans (List.map_id all)

theorem Names.release (h : t.Names all) (token : String) :
    Names { t with tokens := Assoc.erase token t.tokens } (all.map (Taking.drop token)) := by
  intro other place id
  by_cases same : token = other
  · subst same
    rw [Assoc.find?_erase_self]
    constructor
    · nofun
    · rintro ⟨y, inside, named, held, -⟩
      exact absurd named (mem_drop.mp ⟨inside, held⟩).2.2
  · rw [Assoc.find?_erase_ne same, h]
    constructor
    · rintro ⟨y, inside, named, held, there⟩
      have apart : y.token ≠ some token := by
        rw [named]
        exact fun eq => same (Option.some.inj eq).symm
      exact ⟨y, (mem_drop.mpr ⟨inside, held, apart⟩).1, named, held, there⟩
    · rintro ⟨y, inside, named, held, there⟩
      exact ⟨y, (mem_drop.mp ⟨inside, held⟩).1, named, held, there⟩

end Counts

/-! ## Tables and their tokens -/

/-- A table agrees with the tokens that were taken. -/
structure Tracks (t : GuardTable) (all : List Taking) : Prop where
  bounded : t.Bounded
  counts : t.Counts all
  names : t.Names all

section Tracks

variable {t : GuardTable} {all : List Taking} {x : Taking} {name token message : String}

theorem Tracks.place (h : t.Tracks all) (name : String) : (t.place name).1.Tracks all where
  bounded := h.bounded.place name
  counts := h.counts.congr (t.place_guardAt name)
  names := by
    rw [Names, place_tokens]
    exact h.names

/-- A token is taken, and it has no name yet. -/
theorem Tracks.take (h : t.Tracks all) (name message : String) :
    ((t.place name).1.put (t.place name).2
        (((t.place name).1.guardAt (t.place name).2).acquire message)).Tracks
      (all ++ [⟨(t.nextToken name).1, (t.nextToken name).2, none, message, true⟩]) where
  bounded := (h.bounded.place name).put
  counts := by
    have inside := h.bounded.inside name
    exact (h.place name).counts.take
      (x := ⟨(t.nextToken name).1, (t.nextToken name).2, none, message, true⟩) inside rfl rfl rfl
  names := by
    intro token place id
    rw [GuardTable.put, place_tokens, h.names]
    simp

/-- A name that holds nothing gets the token that was taken last. -/
theorem Tracks.call (h : t.Tracks (all ++ [x])) (held : x.held = true) (anonymous : x.token = none)
    (free : ∀ y ∈ all, y.token = some token → y.held = false) :
    Tracks { t with tokens := Assoc.insert token (x.place, x.id) t.tokens }
      (all ++ [{ x with token := some token }]) where
  bounded := h.bounded
  counts := (h.counts.call (some token)).congr fun _ => rfl
  names := by
    intro other place id
    by_cases same : token = other
    · subst same
      rw [Assoc.find?_insert_self]
      constructor
      · rintro ⟨⟩
        exact ⟨_, List.mem_append_right _ List.mem_cons_self, rfl, held, rfl, rfl⟩
      · rintro ⟨y, inside, named, heldY, rfl, rfl⟩
        rcases List.mem_append.mp inside with old | last
        · rw [free y old named] at heldY
          cases heldY
        · rw [List.mem_singleton.mp last]
    · rw [Assoc.find?_insert_ne same, h.names]
      simp [same, anonymous]

/-- The token under a name is the only one that goes back with it. -/
theorem Tracks.under (h : t.Tracks all) {y : Taking} (inside : x ∈ all) (named : x.token = some token)
    (held : x.held = true) (insideY : y ∈ all) (heldY : y.held = true) :
    y.token = some token ↔ y.place = x.place ∧ y.id = x.id := by
  constructor
  · intro namedY
    have found := (h.names token x.place x.id).mpr ⟨x, inside, named, held, rfl, rfl⟩
    have foundY := (h.names token y.place y.id).mpr ⟨y, insideY, namedY, heldY, rfl, rfl⟩
    have same := Option.some.inj (foundY.symm.trans found)
    exact ⟨congrArg Prod.fst same, congrArg Prod.snd same⟩
  · rintro ⟨place, id⟩
    rw [h.counts.unique insideY inside place id, named]

theorem Tracks.release (h : t.Tracks all) (token : String) :
    (t.release token).1.Tracks (all.map (Taking.drop token)) := by
  cases found : Assoc.find? token t.tokens with
  | none =>
    have free : ∀ x ∈ all, x.token = some token → x.held = false := by
      intro x inside named
      cases held : x.held with
      | false => rfl
      | true =>
        rw [(h.names token x.place x.id).mpr ⟨x, inside, named, held, rfl, rfl⟩] at found
        cases found
    rw [map_drop free, GuardTable.release, found]
    exact h
  | some spot =>
    obtain ⟨place, id⟩ := spot
    obtain ⟨x, inside, named, held, rfl, rfl⟩ := (h.names token place id).mp found
    rw [GuardTable.release, found]
    refine ⟨h.bounded.put, ?_, ?_⟩
    · refine Counts.congr (h.counts.drop (h.counts.inside inside) ?_) fun _ => rfl
      intro y insideY heldY
      exact h.under inside named held insideY heldY
    · exact h.names.release token

theorem Tracks.duringFailure (h : t.Tracks all) (name message : String) :
    (t.duringFailure name message).1.Tracks
      (all ++ [⟨(t.nextToken name).1, (t.nextToken name).2, none, message, false⟩]) where
  bounded := (h.bounded.place name).put.put
  counts := (h.place name).counts.brief (h.bounded.inside name) message
  names := by
    intro token place id
    refine (Eq.congr_left (congrArg (Assoc.find? token) (t.place_tokens name))).trans ?_
    rw [h.names]
    simp

theorem tracks (reached : Reached t all) : t.Tracks all := by
  induction reached with
  | start => exact ⟨nofun, ⟨fun _ => rfl, fun _ => rfl⟩, by simp [Names, empty]⟩
  | step x _ ih =>
    cases x with
    | mention name => exact ih.place name
    | clone name copy =>
      have placed := ih.place name
      exact ⟨placed.bounded.insert (ih.bounded.inside name), placed.counts.congr fun _ => rfl,
        placed.names⟩
    | acquire name token message =>
      have released := (ih.take name message).release token
      rw [List.map_append] at released
      refine released.call rfl rfl fun y inside named => ?_
      cases held : y.held with
      | false => rfl
      | true => exact absurd named (mem_drop.mp ⟨inside, held⟩).2.2
    | release token => exact ih.release token
    | duringFailure name message => exact ih.duringFailure name message

theorem Counts.ordered (h : t.Counts all) (place : Nat) :
    (Taking.family place all).Pairwise fun x y => x.id < y.id := by
  have ids := List.pairwise_lt_range (n := (t.guardAt place).nextId)
  rw [← h.ids] at ids
  exact List.pairwise_map.mp ids

/-- Of a guard's tokens the one under the name is gone, and the others are held as before. -/
theorem Tracks.without (h : t.Tracks all) (inside : x ∈ all) (named : x.token = some token)
    (held : x.held = true) :
    ∃ before after, (t.guardAt x.place).active = before ++ x.entry :: after ∧
      ((t.release token).1.guardAt x.place).active = before ++ after := by
  obtain ⟨before, after, alive⟩ :=
    List.append_of_mem (mem_alive.mpr ⟨inside, rfl, held⟩ : x ∈ Taking.alive x.place all)
  have ordered : (Taking.alive x.place all).Pairwise fun x y => x.id < y.id :=
    (h.counts.ordered x.place).filter _
  rw [alive] at ordered
  obtain ⟨-, behind, ahead⟩ := List.pairwise_append.mp ordered
  have others : ∀ y ∈ Taking.alive x.place all, y.id ≠ x.id → y.token ≠ some token := by
    intro y member other namedY
    obtain ⟨insideY, -, heldY⟩ := mem_alive.mp member
    exact other ((h.under inside named held insideY heldY).mp namedY).2
  have left : before.filter (fun y => decide (y.token ≠ some token)) = before := by
    refine List.filter_eq_self.mpr fun y member => decide_eq_true (others y ?_ ?_)
    · rw [alive]
      exact List.mem_append_left _ member
    · exact Nat.ne_of_lt (ahead y member x List.mem_cons_self)
  have right : after.filter (fun y => decide (y.token ≠ some token)) = after := by
    refine List.filter_eq_self.mpr fun y member => decide_eq_true (others y ?_ ?_)
    · rw [alive]
      exact List.mem_append_right _ (List.mem_cons_of_mem _ member)
    · exact Nat.ne_of_gt ((List.pairwise_cons.mp behind).1 y member)
  refine ⟨before.map Taking.entry, after.map Taking.entry, ?_, ?_⟩
  · rw [h.counts.active, alive, List.map_append, List.map_cons]
  · rw [(h.release token).counts.active, alive_drop, alive, List.filter_append,
      List.filter_cons_of_neg (by simp [named]), left, right, List.map_append]

end Tracks

end GuardTable

open GuardTable

section

variable {t : GuardTable} {all : List Taking}

/-- What a handle sees of its guard. -/
theorem GuardTable.Tracks.sees (h : t.Tracks all) (name : String) :
    (t.guard name).activeCount = (Taking.alive (t.place name).2 all).length ∧
    ((t.guard name).isBlocking = true ↔ Taking.alive (t.place name).2 all ≠ []) ∧
    (t.guard name).beforeUnload? = (Taking.alive (t.place name).2 all).head?.map Taking.message ∧
    ((t.guard name).beforeUnload? = none ↔ Taking.alive (t.place name).2 all = []) := by
  have active := h.counts.active (t.place name).2
  rw [← guard_eq] at active
  rw [UnloadGuard.activeCount, UnloadGuard.isBlocking, UnloadGuard.beforeUnload?, active]
  refine ⟨List.length_map _, ?_, ?_, ?_⟩
  · simp
  · rw [List.head?_map, Option.map_map]
    rfl
  · simp

theorem UnloadGuard.confirmNavigation_iff (g : UnloadGuard) :
    (g.confirmNavigation = .proceed ↔ g.beforeUnload? = none) ∧
    ∀ message, g.confirmNavigation = .confirm message ↔ g.beforeUnload? = some message := by
  unfold confirmNavigation
  cases g.beforeUnload? <;> simp

/-- To give a token back is nothing to the guards that it does not come from. -/
theorem GuardTable.Tracks.release_apart (h : t.Tracks all) {x : Taking} {token : String}
    (inside : x ∈ all) (named : x.token = some token) (held : x.held = true) {other : Nat}
    (apart : other ≠ x.place) : (t.release token).1.guardAt other = t.guardAt other := by
  have found := (h.names token x.place x.id).mpr ⟨x, inside, named, held, rfl, rfl⟩
  have spot := h.counts.inside inside
  rw [GuardTable.release, found]
  exact (guardAt_put spot other).trans (if_neg apart)

theorem GuardTable.Tracks.release_free (h : t.Tracks all) {token : String}
    (free : ∀ x ∈ all, x.token = some token → x.held = false) : (t.release token).1 = t := by
  cases found : Assoc.find? token t.tokens with
  | none => rw [GuardTable.release, found]
  | some spot =>
    obtain ⟨x, inside, named, held, -⟩ := (h.names token spot.1 spot.2).mp found
    rw [free x inside named] at held
    cases held

theorem GuardTable.Tracks.duringFailure_holds (h : t.Tracks all) (name message : String) :
    (t.duringFailure name message).2 = (Taking.alive (t.place name).2 all).length + 1 ∧
    ∀ place, ((t.duringFailure name message).1.guardAt place).active = (t.guardAt place).active := by
  have placed := h.place name
  have inside := h.bounded.inside name
  constructor
  · have held : ((t.place name).1.guardAt (t.place name).2).active.length =
        (Taking.alive (t.place name).2 all).length := by
      rw [placed.counts.active, List.length_map]
    have during : ((t.place name).1.put (t.place name).2
        (((t.place name).1.guardAt (t.place name).2).acquire message)).guardAt (t.place name).2 =
          ((t.place name).1.guardAt (t.place name).2).acquire message := by
      rw [guardAt_put inside, if_pos rfl]
    exact (congrArg UnloadGuard.activeCount during).trans
      (List.length_append.trans (congrArg (· + 1) held))
  · intro place
    refine (congrArg UnloadGuard.active (placed.counts.guardAt_brief inside message place)).trans ?_
    rw [apply_ite UnloadGuard.active, ← t.place_guardAt name place]
    split
    · rename_i same
      rw [same]
    · rfl

/-- A handle that is new has a guard of its own. -/
theorem GuardTable.Tracks.place_new (h : t.Tracks all) {name : String}
    (unknown : Assoc.find? name t.handles = none) :
    Taking.family (t.place name).2 all = [] ∧
    ∀ other, Assoc.find? other t.handles ≠ some (t.place name).2 := by
  rw [GuardTable.place, unknown]
  constructor
  · refine List.filter_eq_nil_iff.mpr fun x inside => ?_
    have before := h.counts.inside inside
    simp only [decide_eq_true_eq]
    omega
  · intro other found
    exact Nat.lt_irrefl _ (h.bounded other _ found)

theorem handle_stays (t : GuardTable) (x : Operation) {name : String} {place : Nat}
    (known : Assoc.find? name t.handles = some place) (other : ∀ source, x ≠ .clone source name) :
    Assoc.find? name (t.obey x).handles = some place := by
  have placed : ∀ used, Assoc.find? name (t.place used).1.handles = some place := by
    intro used
    unfold GuardTable.place
    split
    · exact known
    · rename_i unknown
      have apart : used ≠ name := by
        rintro rfl
        rw [unknown] at known
        cases known
      exact (Assoc.find?_insert_ne apart _ _).trans known
  have released : ∀ (t : GuardTable) token, (t.release token).1.handles = t.handles := by
    intro t token
    unfold GuardTable.release
    split <;> rfl
  cases x with
  | mention used => exact placed used
  | clone source copy =>
    have apart : copy ≠ name := fun same => other source (by rw [same])
    exact (Assoc.find?_insert_ne apart _ _).trans (placed source)
  | acquire used token message =>
    refine Eq.trans (congrArg (Assoc.find? name) (released _ token)) (placed used)
  | release token => exact (congrArg (Assoc.find? name) (released t token)).trans known
  | duringFailure used message => exact placed used

/-- The tokens that come from one guard, through whichever handle, have ids that grow from zero on.
Every handle of a guard sees those of its tokens that are still held, and the message of the
oldest. To give a token back removes what the guard had of it and changes no other guard; an act
that fails leaves all guards with what they held. Copies of a handle belong to the same guard, and a
handle that is new belongs to a guard of its own. -/
theorem guard_tokens (reached : Reached t all) :
    (∀ place, (Taking.family place all).Pairwise (fun x y => x.id < y.id) ∧
      ∀ x ∈ Taking.family place all, x.id < (Taking.family place all).length) ∧
    (∀ name,
      (t.guard name).activeCount = (Taking.alive (t.place name).2 all).length ∧
      ((t.guard name).isBlocking = true ↔ Taking.alive (t.place name).2 all ≠ []) ∧
      (t.guard name).beforeUnload? =
        (Taking.alive (t.place name).2 all).head?.map Taking.message ∧
      ((t.guard name).beforeUnload? = none ↔ Taking.alive (t.place name).2 all = []) ∧
      ((t.guard name).confirmNavigation = .proceed ↔ (t.guard name).beforeUnload? = none) ∧
      ∀ message, (t.guard name).confirmNavigation = .confirm message ↔
        (t.guard name).beforeUnload? = some message) ∧
    (∀ name token message, (t.acquire name token message).2 = (t.nextToken name).2) ∧
    (∀ token, ∀ x ∈ all, x.token = some token → x.held = true →
      (∃ before after, (t.guardAt x.place).active = before ++ x.entry :: after ∧
        ((t.release token).1.guardAt x.place).active = before ++ after) ∧
      ∀ other, other ≠ x.place → (t.release token).1.guardAt other = t.guardAt other) ∧
    (∀ token, (∀ x ∈ all, x.token = some token → x.held = false) → (t.release token).1 = t) ∧
    (∀ name message,
      (t.duringFailure name message).2 = (Taking.alive (t.place name).2 all).length + 1 ∧
      ∀ place, ((t.duringFailure name message).1.guardAt place).active = (t.guardAt place).active) ∧
    (∀ name copy, ((t.clone name copy).place copy).2 = (t.place name).2) ∧
    (∀ name, Assoc.find? name t.handles = none → Taking.family (t.place name).2 all = [] ∧
      ∀ other, Assoc.find? other t.handles ≠ some (t.place name).2) ∧
    ∀ x name place, Assoc.find? name t.handles = some place → (∀ source, x ≠ .clone source name) →
      Assoc.find? name (t.obey x).handles = some place := by
  have tracked := tracks reached
  refine ⟨fun place => ⟨tracked.counts.ordered place, fun x inside => ?_⟩, fun name => ?_,
    fun _ _ _ => rfl, fun token x inside named held => ?_, fun token => tracked.release_free,
    tracked.duringFailure_holds, fun name copy => ?_, fun name => tracked.place_new,
    fun x name place => handle_stays t x⟩
  · have count : (Taking.family place all).length = (t.guardAt place).nextId := by
      rw [← List.length_map Taking.id, tracked.counts.ids, List.length_range]
    obtain ⟨taken, rfl⟩ := mem_family.mp inside
    rw [count]
    exact tracked.counts.old taken
  · obtain ⟨count, blocks, message, free⟩ := tracked.sees name
    exact ⟨count, blocks, message, free, UnloadGuard.confirmNavigation_iff _⟩
  · exact ⟨tracked.without inside named held, fun other => tracked.release_apart inside named held⟩
  · rw [GuardTable.place, GuardTable.clone]
    simp only [Assoc.find?_insert_self]

/-- Two tokens are taken from one guard through two handles, and the first goes back: the first handle
sees the second token. -/
theorem guard_tokens_clone :
    let t := (((GuardTable.empty.obey (.acquire "editor" "first" "Saving")).obey
      (.clone "editor" "sidebar")).obey (.acquire "sidebar" "second" "Uploading")).obey
      (.release "first")
    (t.guard "editor").activeCount = 1 ∧ (t.guard "editor").beforeUnload? = some "Uploading" := by
  have reached := Reached.start.step (.acquire "editor" "first" "Saving")
    |>.step (.clone "editor" "sidebar") |>.step (.acquire "sidebar" "second" "Uploading")
    |>.step (.release "first")
  obtain ⟨count, -, message, -⟩ := (guard_tokens reached).2.1 "editor"
  exact ⟨count.trans rfl, message.trans rfl⟩

end

end LiveForm
