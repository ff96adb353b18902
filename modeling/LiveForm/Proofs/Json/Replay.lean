import LiveForm.Proofs.Json.Container
import LiveForm.Store

/-!
# Writing edits onto other values

Values are edited at some paths, and what stands there is written onto other values, one path after
another. The paths may lie above and below each other, or name one place in two ways.

* `Json.Fits l o q`: the path `q` leads to something in `l`, and a write at `q` into `o` goes through
  containers of the kinds that `l` has on the way;
* `Json.graft?_restores`: a write of what `l` has at a fitting path leaves the other fitting paths
  fitting, and those where the values already are as in `l` stay so;
* `Store.writeAll?_restores`: after all writes every path that was written is as in `l`.
-/

set_option autoImplicit false

namespace LiveForm

namespace Json

/-- Writes into what there is in a place, if there is anything. -/
def graft? (o : Option Json) : List String → Json → Option Json
  | [], v => some v
  | s :: rest, v =>
    (graft? ((containerFor s o).child? s) rest v).bind fun c => (containerFor s o).putChild? s c

/-- What a path leads to from a place, if there is anything. -/
def reach? (o : Option Json) (q : List String) : Option Json := o.bind fun t => t.follow? q

def Fits (l : Json) (o : Option Json) : List String → Prop
  | [] => True
  | s :: rest =>
    l.kind? = (containerFor s o).kind? ∧
      ∃ c, l.child? s = some c ∧ Fits c ((containerFor s o).child? s) rest

theorem reach?_nil (o : Option Json) : reach? o [] = o := by cases o <;> rfl

theorem graft?_containerFor (s : String) (o : Option Json) (rest : List String) (v : Json) :
    graft? (some (containerFor s o)) (s :: rest) v = graft? o (s :: rest) v := by
  obtain ⟨k, kind⟩ := containerFor_kind s o
  rw [graft?, graft?, containerFor_of_kind? kind]

/-- A write into a container is a write into what there is. -/
theorem write?_eq_graft? {t : Json} {k : Kind} (kind : t.kind? = some k) (s : String)
    (rest : List String) (v : Json) : t.write? (s :: rest) v = graft? (some t) (s :: rest) v := by
  induction rest generalizing t k s with
  | nil => rw [write?, graft?, containerFor_of_kind? kind, graft?, Option.bind_some]
  | cons next rest ih =>
    obtain ⟨k', below⟩ := containerFor_kind next (t.child? s)
    have outer : graft? (some t) (s :: next :: rest) v =
        (graft? (t.child? s) (next :: rest) v).bind fun c => t.putChild? s c := by
      rw [graft?, containerFor_of_kind? kind]
    rw [write?, ih below next, graft?_containerFor, outer]

theorem set?_eq_graft? {t : Json} {p : FieldPath} (object : t.kind? = some .object)
    (named : p.segments ≠ []) (v : Json) : t.set? p v = graft? (some t) p.segments v := by
  obtain ⟨segments⟩ := p
  obtain ⟨s, rest, rfl⟩ := List.exists_cons_of_ne_nil named
  exact write?_eq_graft? object s rest v

/-- Where there is no container yet, a write makes an empty one. -/
theorem containerFor_fresh {o : Option Json} (h : o.bind kind? = none) (s : String) :
    containerFor s o = if (FieldPath.index? s).isSome then .arr [] else emptyObject := by
  cases o with
  | none => rfl
  | some t =>
    cases t with
    | obj | arr => cases h
    | _ => rfl

theorem containerFor_fresh_child {o : Option Json} (h : o.bind kind? = none) (s s' : String) :
    (containerFor s o).child? s' = none := by
  rw [containerFor_fresh h]
  split
  · cases index : FieldPath.index? s' <;> simp [child?, index]
  · rfl

/-- What a write goes on into is what is there, or an empty container. -/
theorem containerFor_cases (o : Option Json) :
    o.bind kind? = none ∨ ∃ t k, o = some t ∧ t.kind? = some k ∧ ∀ s, containerFor s o = t := by
  cases known : o.bind kind? with
  | none => exact .inl rfl
  | some k =>
    obtain ⟨t, rfl, kind⟩ := Option.bind_eq_some_iff.mp known
    exact .inr ⟨t, k, rfl, kind, containerFor_of_kind? kind⟩

theorem containerFor_child? (s s' : String) (o : Option Json) :
    (containerFor s o).child? s' = o.bind fun t => t.child? s' := by
  rcases containerFor_cases o with fresh | ⟨t, k, rfl, _, there⟩
  · rw [containerFor_fresh_child fresh]
    cases o with
    | none => rfl
    | some t => exact (child?_of_kind? fresh s').symm
  · rw [there]
    rfl

theorem graft?_cons {o : Option Json} {s : String} {r : List String} {v t' : Json} :
    graft? o (s :: r) v = some t' ↔ ∃ u,
      graft? (o.bind fun t => t.child? s) r v = some u ∧
        (containerFor s o).putChild? s u = some t' := by
  rw [graft?, containerFor_child?, Option.bind_eq_some_iff]

/-- What was written is there. -/
theorem graft?_here {o : Option Json} {r : List String} {v t' : Json}
    (written : graft? o r v = some t') : t'.follow? r = some v := by
  induction r generalizing o t' with
  | nil => exact written.symm
  | cons s r ih =>
    obtain ⟨u, below, put⟩ := graft?_cons.mp written
    obtain ⟨k, kind⟩ := containerFor_kind s o
    rw [follow?, putChild?_here kind put]
    exact ih below

/-- Nothing is reached through a scalar, nor through the empty container that takes its place. -/
theorem reach?_cons (o : Option Json) (s : String) (rest : List String) :
    reach? o (s :: rest) = reach? ((containerFor s o).child? s) rest := by
  rcases containerFor_cases o with fresh | ⟨t, k, rfl, _, there⟩
  · rw [containerFor_fresh_child fresh]
    cases o with
    | none => rfl
    | some t =>
      rw [reach?, Option.bind_some, follow?, child?_of_kind? fresh]
      rfl
  · rw [there]
    rfl

theorem reach?_child (o : Option Json) (s : String) (q : List String) :
    reach? o (s :: q) = reach? (o.bind fun t => t.child? s) q := by
  rw [reach?_cons, containerFor_child?]

/-- Which container a write makes depends on its kind only. -/
theorem containerFor_congr {s s' : String} {o : Option Json}
    (same : (containerFor s o).kind? = (containerFor s' o).kind?) :
    containerFor s o = containerFor s' o := by
  rcases containerFor_cases o with fresh | ⟨t, k, rfl, _, there⟩
  · rw [containerFor_fresh fresh, containerFor_fresh fresh] at same ⊢
    by_cases index : (FieldPath.index? s).isSome <;>
      by_cases index' : (FieldPath.index? s').isSome <;>
      simp [index, index', kind?, emptyObject] at same ⊢
  · rw [there, there]

namespace Fits

variable {l : Json} {o : Option Json} {q : List String}

theorem found (h : Fits l o q) : ∃ v, l.follow? q = some v := by
  induction q generalizing l o with
  | nil => exact ⟨l, rfl⟩
  | cons s rest ih =>
    obtain ⟨_, c, child, below⟩ := h
    obtain ⟨v, last⟩ := ih below
    exact ⟨v, Option.bind_eq_some_iff.mpr ⟨c, child, last⟩⟩

theorem self {v : Json} (h : l.follow? q = some v) : Fits l (some l) q := by
  induction q generalizing l with
  | nil => trivial
  | cons s rest ih =>
    obtain ⟨c, child, last⟩ := Option.bind_eq_some_iff.mp h
    obtain ⟨k, kind⟩ := kind?_of_child? child
    rw [Fits, containerFor_of_kind? kind, child]
    exact ⟨rfl, c, rfl, ih last⟩

/-- A place filled with `null` is as good as no place. -/
theorem null (h : Fits l none q) : Fits l (some .null) q := by
  cases q with
  | nil => trivial
  | cons => exact h

/-- A path that fits two places in `l` fits one in the other. -/
theorem carry {m v : Json} (h : Fits l (some m) q) (other : Fits l o q)
    (there : m.follow? q = some v) : Fits m o q := by
  induction q generalizing l m o with
  | nil => trivial
  | cons s rest ih =>
    obtain ⟨kinds, c, child, below⟩ := h
    obtain ⟨kinds', c', child', below'⟩ := other
    obtain ⟨d, step, there⟩ := Option.bind_eq_some_iff.mp there
    obtain ⟨k, kind⟩ := kind?_of_child? step
    rw [containerFor_of_kind? kind] at kinds
    rw [containerFor_of_kind? kind, step] at below
    rw [child] at child'
    cases child'
    exact ⟨kinds.symm.trans kinds', d, step, ih below below' there⟩

/-- On the way of a fitting path the kinds are those of `l`. -/
theorem kindAt? {m v : Json} {c rest : List String} {s : String} (h : Fits l (some m) (c ++ s :: rest))
    (there : m.follow? (c ++ s :: rest) = some v) : m.kindAt? c = l.kindAt? c := by
  induction c generalizing l m with
  | nil =>
    obtain ⟨d, step, -⟩ := Option.bind_eq_some_iff.mp there
    obtain ⟨k, kind⟩ := kind?_of_child? step
    rw [List.nil_append, Fits, containerFor_of_kind? kind] at h
    exact h.1.symm
  | cons first c ih =>
    obtain ⟨-, b, child, below⟩ := h
    obtain ⟨d, step, there⟩ := Option.bind_eq_some_iff.mp there
    obtain ⟨k, kind⟩ := kind?_of_child? step
    rw [containerFor_of_kind? kind, step] at below
    rw [kindAt?_cons child, kindAt?_cons step]
    exact ih below there

theorem of_kinds {v : Json} (live : l.follow? q = some v)
    (same : ∀ c s rest, q = c ++ s :: rest →
      (∀ k, (reach? o c).bind kind? = some k → l.kindAt? c = some k) ∧
        ((reach? o c).bind kind? = none →
          (l.kindAt? c = some .list ↔ (FieldPath.index? s).isSome = true))) : Fits l o q := by
  induction q generalizing l o with
  | nil => trivial
  | cons s rest ih =>
    obtain ⟨c, child, live⟩ := Option.bind_eq_some_iff.mp live
    obtain ⟨k, kind⟩ := kind?_of_child? child
    obtain ⟨known, unknown⟩ := same [] s rest rfl
    have top : l.kindAt? [] = some k := kind
    rw [reach?_nil, top] at known unknown
    refine ⟨?_, c, child, ih live ?_⟩
    · rcases containerFor_cases o with fresh | ⟨t, k', rfl, kind', there⟩
      · have list := unknown fresh
        rw [containerFor_fresh fresh, kind]
        cases k with
        | object =>
          rw [if_neg fun index => by cases list.mpr index]
          rfl
        | list =>
          rw [if_pos (list.mp rfl)]
          rfl
      · rw [there, kind', kind, known k' kind']
    · intro above s' rest' split
      rw [← reach?_cons o s above]
      have below := same (s :: above) s' rest' (congrArg (s :: ·) split)
      rw [kindAt?_cons child] at below
      exact below

end Fits

/-- Where `t` has a container on the way of a path, `l` has one of the same kind; where it has none,
what `l` has is a list iff the next segment is an index. -/
def SameKinds (l t : Json) (q : List String) : Prop :=
  ∀ c s rest, q = c ++ s :: rest →
    (∀ k, t.kindAt? c = some k → l.kindAt? c = some k) ∧
      (t.kindAt? c = none → (l.kindAt? c = some .list ↔ (FieldPath.index? s).isSome = true))

/-- The ways to cut a path in front of one of its segments. -/
theorem forall_cut_iff {q : List String} {P : List String → String → Prop} :
    (∀ c s rest, q = c ++ s :: rest → P c s) ↔ ∀ i (h : i < q.length), P (q.take i) q[i] := by
  constructor
  · intro each i inside
    refine each (q.take i) q[i] (q.drop (i + 1)) ?_
    rw [← List.drop_eq_getElem_cons, List.take_append_drop]
  · rintro each c s rest rfl
    simpa using each c.length (by simp)

instance (l t : Json) (q : List String) : Decidable (l.SameKinds t q) :=
  have (c : List String) : Decidable (∀ k, t.kindAt? c = some k → l.kindAt? c = some k) :=
    inferInstanceAs (Decidable (∀ k ∈ t.kindAt? c, l.kindAt? c = some k))
  decidable_of_iff _ forall_cut_iff.symm

theorem SameKinds.fits {l t v : Json} {q : List String} (h : l.SameKinds t q)
    (live : l.follow? q = some v) : Fits l (some t) q :=
  .of_kinds live h

/-- In `t'` the place that `r` names is as in `l`, and nothing is lost that was in `o`. -/
structure Restores (l : Json) (o : Option Json) (r : List String) (t' : Json) : Prop where
  here : t'.follow? r = l.follow? r
  fits : ∀ q, Fits l o q → Fits l (some t') q
  keeps : ∀ q, Fits l o q → reach? o q = l.follow? q → t'.follow? q = l.follow? q

theorem graft?_restores {l v : Json} {o : Option Json} {r : List String} (proper : l.Proper)
    (fits : Fits l o r) (live : l.follow? r = some v) :
    ∃ t', graft? o r v = some t' ∧ Restores l o r t' := by
  induction r generalizing l o with
  | nil =>
    obtain rfl : l = v := Option.some.inj live
    refine ⟨l, rfl, rfl, ?_, fun q _ _ => rfl⟩
    intro q fits
    obtain ⟨w, found⟩ := fits.found
    exact .self found
  | cons s rest ih =>
    obtain ⟨kinds, c, child, fitsBelow⟩ := fits
    rw [follow?, child] at live
    obtain ⟨k, kind⟩ := kind?_of_child? child
    obtain ⟨u, written, below⟩ := ih (proper.child? child) fitsBelow live
    obtain ⟨t', put, puts⟩ := putChild?_puts proper kind (kinds.symm.trans kind) child u
    have here : t'.child? s = some u := puts.here s (by cases k <;> rfl)
    -- a fitting path starts in the container that is written to, in the same place or in another
    have beside {s' : String} {rest' : List String} (fits : Fits l o (s' :: rest')) :
        containerFor s' o = containerFor s o ∧ containerFor s' (some t') = t' ∧
          ∃ c', l.child? s' = some c' ∧ Fits c' ((containerFor s o).child? s') rest' := by
      obtain ⟨kinds', c', child', fits'⟩ := fits
      have same := containerFor_congr (kinds'.symm.trans kinds)
      rw [same] at fits'
      exact ⟨same, containerFor_of_kind? puts.kind s', c', child', fits'⟩
    refine ⟨t', ?_, ?_, ?_, ?_⟩
    · rw [graft?, written]
      exact put
    · rw [follow?, follow?, here, child]
      exact below.here
    · intro q fits
      cases q with
      | nil => trivial
      | cons s' rest' =>
        obtain ⟨-, outer, c', child', fits'⟩ := beside fits
        rw [Fits, outer]
        refine ⟨kind.trans puts.kind.symm, c', child', ?_⟩
        by_cases same : k.SamePlace s s'
        · rw [child?_samePlace (kinds.symm.trans kind) same] at fits'
          rw [child?_samePlace kind same, child] at child'
          cases child'
          rw [puts.here s' same]
          exact below.fits rest' fits'
        · rcases puts.elsewhere s' same with old | ⟨none, null⟩
          · rwa [old]
          · rw [none] at fits'
            rw [null]
            exact fits'.null
    · intro q fits agrees
      cases q with
      | nil =>
        obtain rfl : o = some l := by simpa [reach?, follow?] using agrees
        rw [containerFor_of_kind? kind, child] at below
        rw [containerFor_of_kind? kind] at put
        have unchanged : u = c := Option.some.inj (below.keeps [] trivial rfl)
        rw [unchanged, putChild?_found proper child] at put
        cases put
        rfl
      | cons s' rest' =>
        obtain ⟨same, -, c', child', fits'⟩ := beside fits
        rw [reach?_cons, same] at agrees
        rw [follow?, child'] at agrees
        rw [follow?, follow?, child']
        by_cases same : k.SamePlace s s'
        · rw [child?_samePlace (kinds.symm.trans kind) same] at fits' agrees
          rw [child?_samePlace kind same, child] at child'
          cases child'
          rw [puts.here s' same]
          exact below.keeps rest' fits' agrees
        · rcases puts.elsewhere s' same with old | ⟨none, -⟩
          · rw [old]
            exact agrees
          · obtain ⟨w, found⟩ := fits'.found
            rw [none, Option.bind_some, found] at agrees
            cases agrees

/-- To write what is there changes nothing. -/
theorem graft?_found {l v : Json} {r : List String} (proper : l.Proper)
    (live : l.follow? r = some v) : graft? (some l) r v = some l := by
  obtain ⟨t', written, restores⟩ := graft?_restores proper (.self live) live
  obtain rfl : t' = l := Option.some.inj (restores.keeps [] trivial rfl)
  exact written

end Json

open Json

theorem Store.rooted_object (v : Json) : (Store.rooted v).kind? = some .object := by
  cases v <;> rfl

/-- Every path that is written ends up as it is in `l`. -/
theorem Store.writeAll?_restores {l t : Json} {edits : List (FieldPath × Json)} (proper : l.Proper)
    (object : t.kind? = some .object)
    (each : ∀ e ∈ edits, e.1.segments ≠ [] ∧ l.follow? e.1.segments = some e.2 ∧
      Fits l (some t) e.1.segments) :
    ∃ t', Store.writeAll? t edits = some t' ∧ t'.kind? = some .object ∧
      (∀ q, Fits l (some t) q → Fits l (some t') q ∧
        (t.follow? q = l.follow? q → t'.follow? q = l.follow? q)) ∧
      ∀ e ∈ edits, t'.follow? e.1.segments = some e.2 := by
  induction edits generalizing t with
  | nil => exact ⟨t, rfl, object, fun q fits => ⟨fits, id⟩, by simp⟩
  | cons e rest ih =>
    obtain ⟨⟨segments⟩, v⟩ := e
    obtain ⟨named, live, fits⟩ := each _ List.mem_cons_self
    obtain ⟨u, written, restores⟩ := graft?_restores proper fits live
    have set : t.set? ⟨segments⟩ v = some u := (set?_eq_graft? object named v).trans written
    obtain ⟨t', others, object', keeps, reads⟩ := ih (write?_object object set) fun e inside => by
      obtain ⟨named, live, fits⟩ := each e (List.mem_cons_of_mem _ inside)
      exact ⟨named, live, restores.fits _ fits⟩
    refine ⟨t', ?_, object', ?_, ?_⟩
    · rw [Store.writeAll?, set]
      exact others
    · intro q fits
      obtain ⟨fits', agree'⟩ := keeps q (restores.fits q fits)
      exact ⟨fits', fun agrees => agree' (restores.keeps q fits agrees)⟩
    · intro e inside
      rcases List.mem_cons.mp inside with rfl | inside
      · exact ((keeps _ (restores.fits _ fits)).2 restores.here).trans live
      · exact reads e inside

end LiveForm
