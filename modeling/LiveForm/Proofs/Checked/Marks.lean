import LiveForm.Proofs.Checked
import LiveForm.Proofs.Difference
import LiveForm.DirtyFields.Extract

/-!
# Marks with every index checked

Values are compared, and what is marked is picked, by programs that stop at faults.

* `Checked.compare`, `Checked.diff`, `Checked.diff_eq`: the difference of two values, with lists gone
  through by their indices;
* `Checked.extract`, `Checked.extract_eq`: what marks pick, with what is picked from a list put into
  its places at the end;
* `access_faults`: none of this stops, and a write stops only at the last index of a list.
-/

set_option autoImplicit false

namespace LiveForm

open Json DirtyTree

namespace Checked

/-! ## Differences -/

mutual

def compare (wraps : Bool) (x y : Json) : Except Fault (Option DirtyTree) :=
  match x, y with
  | .obj ms, .obj ns => (compareMembers wraps ms ns).map fun m => branch? (addMissing ms ns m)
  | .arr xs, .arr ys => (comparePlaces wraps xs ys 0 (max xs.length ys.length)).map branch?
  | x, y => .ok (if x.same y then none else some .leaf)
termination_by (sizeOf x, 0)

def compareMembers (wraps : Bool) (ms ns : List (String × Json)) :
    Except Fault (List (String × DirtyTree)) :=
  match ms with
  | [] => .ok []
  | (k, v) :: rest => do
    let found ← (match Assoc.find? k ns with
      | some old => compare wraps v old
      | none => .ok (some .leaf))
    let others ← compareMembers wraps rest ns
    .ok (addDifference k found others)
termination_by (sizeOf ms, 0)

/-- Compares what two lists have at an index. -/
def compareThere (wraps : Bool) (xs ys : List Json) (i : Nat) :
    Except Fault (Option DirtyTree) := do
  let x? ← item? xs.attach i
  let y? ← item? ys i
  match x?, y? with
  | some ⟨x, _⟩, some y => compare wraps x y
  | _, _ => .ok (some .leaf)
termination_by (sizeOf xs, 0)

/-- Compares `count` places from `i` on. -/
def comparePlaces (wraps : Bool) (xs ys : List Json) (i count : Nat) :
    Except Fault (List (String × DirtyTree)) :=
  match count with
  | 0 => .ok []
  | count + 1 => do
    let found ← compareThere wraps xs ys i
    let others ← comparePlaces wraps xs ys (← next wraps i) count
    .ok (addDifference (toString i) found others)
termination_by (sizeOf xs, count)

end

def diff (wraps : Bool) (current baseline : Json) : Except Fault DirtyFields := do
  match ← compare wraps current baseline with
  | some (.branch children) => .ok ⟨children⟩
  | some .leaf =>
    match current with
    | .obj ms => .ok ⟨Assoc.ofPairs (ms.map fun e => (e.1, DirtyTree.leaf))⟩
    | _ => .ok .empty
  | none => .ok .empty

variable {wraps : Bool} {i n count : Nat} {xs ys out : List Json} {x y : Json}
  {picked : List (Nat × Json)}

/-- From a place on that one of the lists has, the difference is that of this place and of the others
behind it. -/
theorem diffItems_drop (inside : i < max xs.length ys.length) :
    diffItems i (xs.drop i) (ys.drop i) =
      addDifference (toString i) (between? xs[i]? ys[i]?)
        (diffItems (i + 1) (xs.drop (i + 1)) (ys.drop (i + 1))) := by
  cases item : xs[i]? with
  | some x =>
    obtain ⟨within, rfl⟩ := List.getElem?_eq_some_iff.mp item
    rw [List.drop_eq_getElem_cons within, diffItems_cons, List.tail_drop]
    simp [between?]
  | none =>
    have ended : xs.length ≤ i := List.getElem?_eq_none_iff.mp item
    have within : i < ys.length := by omega
    rw [List.drop_of_length_le ended, List.drop_of_length_le (Nat.le_succ_of_le ended),
      List.drop_eq_getElem_cons within, diffItems, diffItems, List.length_cons, addPlaces,
      List.getElem?_eq_getElem within]
    rfl

theorem compareThere_eq (each : ∀ x ∈ xs, ∀ y ∈ ys, compare wraps x y = .ok (diff? x y))
    (inside : i < max xs.length ys.length) :
    compareThere wraps xs ys i = .ok (between? xs[i]? ys[i]?) := by
  rw [compareThere, item?_eq, ok_bind, item?_eq, ok_bind]
  by_cases within : i < xs.length
  · have there : xs.attach[i]? = some ⟨xs[i], List.getElem_mem within⟩ := by simp [within]
    rw [there, List.getElem?_eq_getElem within]
    cases second : ys[i]? with
    | none => rfl
    | some y => exact each _ (List.getElem_mem within) y (List.mem_of_getElem? second)
  · have ended : xs.attach[i]? = none := by simpa using within
    have within' : i < ys.length := by omega
    rw [ended, List.getElem?_eq_none (Nat.le_of_not_lt within), List.getElem?_eq_getElem within']
    rfl

theorem comparePlaces_eq (each : ∀ x ∈ xs, ∀ y ∈ ys, compare wraps x y = .ok (diff? x y))
    (places : i + count = max xs.length ys.length)
    (short : max xs.length ys.length ≤ FieldPath.lastIndex) :
    comparePlaces wraps xs ys i count = .ok (diffItems i (xs.drop i) (ys.drop i)) := by
  induction count generalizing i with
  | zero =>
    rw [comparePlaces, List.drop_of_length_le (by omega), List.drop_of_length_le (by omega),
      diffItems]
    rfl
  | succ count ih =>
    have inside : i < max xs.length ys.length := by omega
    rw [diffItems_drop inside, comparePlaces, compareThere_eq each inside, ok_bind,
      next_eq (by omega), ok_bind, ih (by omega)]
    rfl

theorem compareMembers_eq {ms ns : List (String × Json)}
    (each : ∀ e ∈ ms, ∀ y, (∃ e' ∈ ns, e'.2 = y) → compare wraps e.2 y = .ok (diff? e.2 y)) :
    compareMembers wraps ms ns = .ok (diffMembers ms ns) := by
  induction ms with
  | nil => rw [compareMembers, diffMembers]
  | cons e ms ih =>
    obtain ⟨k, v⟩ := e
    obtain ⟨first, others⟩ := List.forall_mem_cons.mp each
    rw [compareMembers, diffMembers_cons, ih others]
    cases found : Assoc.find? k ns with
    | none => rfl
    | some old =>
      have compared := first old ⟨_, Assoc.mem_of_find? found, rfl⟩
      show (compare wraps v old >>= _) = _
      rw [compared]
      rfl

theorem compare_unlike (h : x.kind? ≠ y.kind? ∨ x.kind? = none) :
    compare wraps x y = .ok (diff? x y) := by
  rw [diff?_unlike h]
  cases x with
  | obj ms =>
    cases y with
    | obj => simp [kind?] at h
    | _ => rw [compare] <;> simp
  | arr xs =>
    cases y with
    | arr => simp [kind?] at h
    | _ => rw [compare] <;> simp
  | _ => rw [compare] <;> simp

theorem compare_eq (proper : x.Proper) (proper' : y.Proper) :
    compare wraps x y = .ok (diff? x y) := by
  induction proper generalizing y with
  | @arr xs short _ ih =>
    cases proper' with
    | @arr ys short' items =>
      have compared : comparePlaces wraps xs ys 0 (max xs.length ys.length) =
          .ok (diffItems 0 xs ys) := by
        apply comparePlaces_eq _ (Nat.zero_add _) (Nat.max_le.mpr ⟨short, short'⟩)
        intro x inside y inside'
        exact ih x inside (items y inside')
      rw [compare, diff?, compared]
      rfl
    | _ => exact compare_unlike (.inl (by simp [kind?]))
  | @obj ms _ _ ih =>
    cases proper' with
    | @obj ns _ members =>
      have compared : compareMembers wraps ms ns = .ok (diffMembers ms ns) := by
        apply compareMembers_eq
        rintro e inside y ⟨e', inside', rfl⟩
        exact ih e inside (members e' inside')
      rw [compare, diff?, compared]
      rfl
    | _ => exact compare_unlike (.inl (by simp [kind?]))
  | _ => exact compare_unlike (.inr rfl)

theorem diff_eq (proper : x.Proper) (proper' : y.Proper) :
    diff wraps x y = .ok (DirtyFields.diff x y) := by
  unfold diff DirtyFields.diff
  rw [compare_eq proper proper', ok_bind]
  cases diff? x y with
  | none => rfl
  | some t =>
    cases t with
    | branch => rfl
    | leaf => cases x <;> rfl

/-! ## Extraction -/

/-- Puts an item at an index that the list has. -/
def put (xs : List Json) (i : Nat) (v : Json) : Except Fault (List Json) :=
  if i < xs.length then .ok (xs.set i v) else .error .outOfRange

/-- The length of a list that has room for all that has been picked. -/
def extent (wraps : Bool) : List (Nat × Json) → Except Fault Nat
  | [] => .ok 0
  | (i, _) :: rest => do
    let n ← next wraps i
    let others ← extent wraps rest
    .ok (max n others)

/-- Puts what has been picked into its places, one after another. -/
def putAll : List (Nat × Json) → List Json → Except Fault (List Json)
  | [], out => .ok out
  | (i, v) :: rest, out => do putAll rest (← put out i v)

mutual

def extract (wraps : Bool) : DirtyTree → Json → Except Fault Json
  | .leaf, v => .ok v
  | .branch children, v =>
    match v with
    | .obj ms => (extractMembers wraps children ms).map .obj
    | .arr xs => do
      let picked ← pick wraps children xs
      let n ← extent wraps picked
      (putAll picked (List.replicate n .null)).map .arr
    | v => .ok v

def extractMembers (wraps : Bool) :
    List (String × DirtyTree) → List (String × Json) → Except Fault (List (String × Json))
  | [], _ => .ok []
  | (k, t) :: rest, ms =>
    match Assoc.find? k ms with
    | some v => do
      let part ← extract wraps t v
      let others ← extractMembers wraps rest ms
      .ok (Assoc.insert k part others)
    | none => extractMembers wraps rest ms

/-- What the marks pick from a list, with the indices that they name. -/
def pick (wraps : Bool) :
    List (String × DirtyTree) → List Json → Except Fault (List (Nat × Json))
  | [], _ => .ok []
  | (k, t) :: rest, xs =>
    match FieldPath.index? k with
    | none => pick wraps rest xs
    | some i => do
      match ← item? xs i with
      | none => pick wraps rest xs
      | some v =>
        let part ← extract wraps t v
        let others ← pick wraps rest xs
        .ok ((i, part) :: others)

end

/-- Puts picked items into a list that grows as they need it. -/
def grow (out : List Json) (picked : List (Nat × Json)) : List Json :=
  picked.foldl (fun out e => putItem e.2 e.1 out) out

variable {t : DirtyTree} {m : List (String × DirtyTree)} {ms : List (String × Json)}

theorem extent_eq (wraps : Bool) (inside : ∀ e ∈ picked, e.1 < FieldPath.lastIndex) :
    ∃ n, extent wraps picked = .ok n ∧ (∀ e ∈ picked, e.1 < n) ∧
      ∀ out, (grow out picked).length = max out.length n := by
  induction picked with
  | nil => exact ⟨0, rfl, by simp, fun out => by simp [grow]⟩
  | cons e picked ih =>
    obtain ⟨i, v⟩ := e
    obtain ⟨first, others⟩ := List.forall_mem_cons.mp inside
    obtain ⟨n, counted, below, length⟩ := ih others
    refine ⟨max (i + 1) n, ?_, ?_, ?_⟩
    · rw [extent, next_eq first, ok_bind, counted]
      rfl
    · rw [List.forall_mem_cons]
      constructor
      · omega
      · intro e among
        have := below e among
        omega
    · intro out
      have later := length (putItem v i out)
      rw [length_putItem, Nat.max_assoc] at later
      exact later

/-- It does not matter whether room is made for picked items before or after they are put. -/
theorem putAll_eq (below : ∀ e ∈ picked, e.1 < n) (out : List Json) :
    putAll picked (out.takeD n .null) = .ok ((grow out picked).takeD n .null) := by
  induction picked generalizing out with
  | nil => rfl
  | cons e picked ih =>
    obtain ⟨i, v⟩ := e
    obtain ⟨first, others⟩ := List.forall_mem_cons.mp below
    have room : put (out.takeD n .null) i v = .ok ((putItem v i out).takeD n .null) := by
      rw [put, List.takeD_length, if_pos first, set_takeD first]
    rw [putAll, room, ok_bind, ih others]
    rfl

theorem pick_eq (each : ∀ x ∈ xs, ∀ t, extract wraps t x = .ok (t.extract x))
    (m : List (String × DirtyTree)) :
    ∃ picked, pick wraps m xs = .ok picked ∧ (∀ e ∈ picked, e.1 < xs.length) ∧
      ∀ out, DirtyTree.extractItems m xs out = grow out picked := by
  induction m with
  | nil =>
    refine ⟨[], by rw [pick], by simp, ?_⟩
    intro out
    rw [DirtyTree.extractItems]
    rfl
  | cons e m ih =>
    obtain ⟨k, t⟩ := e
    obtain ⟨picked, others, below, grown⟩ := ih
    cases index : FieldPath.index? k with
    | none =>
      refine ⟨picked, ?_, below, ?_⟩
      · rw [pick, index]
        exact others
      · intro out
        rw [DirtyTree.extractItems, index]
        exact grown out
    | some i =>
      cases found : xs[i]? with
      | none =>
        refine ⟨picked, ?_, below, ?_⟩
        · rw [pick, index]
          show (item? xs i >>= _) = _
          rw [item?_eq, found]
          exact others
        · intro out
          rw [DirtyTree.extractItems, index, Option.bind_some, found]
          exact grown out
      | some x =>
        refine ⟨(i, t.extract x) :: picked, ?_, ?_, ?_⟩
        · rw [pick, index]
          show (item? xs i >>= _) = _
          rw [item?_eq, found, ok_bind]
          show (extract wraps t x >>= _) = _
          rw [each x (List.mem_of_getElem? found), others]
          rfl
        · exact List.forall_mem_cons.mpr ⟨(List.getElem?_eq_some_iff.mp found).1, below⟩
        · intro out
          rw [DirtyTree.extractItems, index, Option.bind_some, found]
          exact grown _

theorem extractMembers_eq
    (each : ∀ e ∈ ms, ∀ t, extract wraps t e.2 = .ok (t.extract e.2))
    (m : List (String × DirtyTree)) :
    extractMembers wraps m ms = .ok (DirtyTree.extractMembers m ms) := by
  induction m with
  | nil => rw [extractMembers, DirtyTree.extractMembers]
  | cons e m ih =>
    obtain ⟨k, t⟩ := e
    rw [extractMembers, DirtyTree.extractMembers]
    cases found : Assoc.find? k ms with
    | none => exact ih
    | some v =>
      have part := each _ (Assoc.mem_of_find? found) t
      show (extract wraps t v >>= _) = _
      rw [part, ih]
      rfl

theorem extract_eq (proper : x.Proper) (t : DirtyTree) :
    extract wraps t x = .ok (t.extract x) := by
  induction proper generalizing t with
  | @arr xs short _ ih =>
    cases t with
    | leaf => rw [extract, DirtyTree.extract]
    | branch children =>
      obtain ⟨picked, taken, below, grown⟩ := pick_eq ih children
      obtain ⟨n, counted, inside, length⟩ :=
        extent_eq wraps fun e among => Nat.lt_of_lt_of_le (below e among) short
      have filled := putAll_eq inside []
      rw [List.takeD_nil, takeD_length_self ((length []).trans (Nat.zero_max n)), ← grown] at filled
      rw [extract, DirtyTree.extract, taken, ok_bind, counted, ok_bind, filled]
      rfl
  | @obj ms _ _ ih =>
    cases t with
    | leaf => rw [extract, DirtyTree.extract]
    | branch children =>
      rw [extract, DirtyTree.extract, extractMembers_eq ih]
      rfl
  | _ => cases t <;> rw [extract, DirtyTree.extract] <;> simp

end Checked

open Checked

/-- Lists are written and read by their indices, in sums of words that are refused after the last word
or start again from zero.

* A write has no result iff one of the nodes that it comes to, as they are found or made on the way, is
  a list that is asked for the last index of all, and this is what stops it: the sum, or the index of
  a list that has lost its items. In all other cases it comes to its end with the same result.
* Reads, comparisons and extractions never stop. -/
theorem access_faults (wraps : Bool) {t : Json} (proper : t.Proper) :
    (∀ (p : FieldPath) (v : Json),
      (t.set? p v = none ↔ ∃ xs s, (.arr xs, s) ∈ t.stations p.segments ∧
        FieldPath.index? s = some (2 ^ 64 - 1)) ∧
      Checked.write wraps t p.segments v =
        match t.set? p v with
        | some t' => .ok t'
        | none => .error (if wraps then .outOfRange else .overflow)) ∧
    (∀ p : FieldPath, Checked.read t p.segments = .ok (t.get? p)) ∧
    (∀ baseline : Json, baseline.Proper →
      Checked.diff wraps t baseline = .ok (DirtyFields.diff t baseline)) ∧
    ∀ d : DirtyFields, Checked.extract wraps (.branch d.children) t = .ok (d.extract t) := by
  refine ⟨?_, fun p => read_eq t p.segments, fun _ => diff_eq proper, fun d => extract_eq proper _⟩
  intro p v
  constructor
  · exact write?_eq_none.trans overruns_iff
  · rw [write_eq proper, set?]
    cases t.write? p.segments v <;> rfl

/-- A list is made on the way and asked for its last index, which stops the write whichever way sums
go. A row behind the first one is written, and then picked. -/
theorem access_faults_made :
    let rows := Json.obj [("rows", .arr [.int 1])]
    let longer := Json.obj [("rows", .arr [.int 1, .int 2])]
    let marks : DirtyFields := ⟨[("rows", .branch [("1", .leaf)])]⟩
    Checked.write false rows ["sums", "+18446744073709551615"] .null = .error .overflow ∧
      Checked.write true rows ["sums", "+18446744073709551615"] .null = .error .outOfRange ∧
      Checked.write true rows ["rows", "01"] (.int 2) = .ok longer ∧
      Checked.read longer ["rows", "1"] = .ok (some (.int 2)) ∧
      Checked.diff false longer rows = .ok marks ∧
      Checked.extract false (.branch marks.children) longer =
        .ok (.obj [("rows", .arr [.null, .int 2])]) := by
  intro rows longer marks
  have proper : rows.Proper := .member _ (.item (.int 1))
  have proper' : longer.Proper := by
    refine .member _ (.arr (by decide) ?_)
    exact List.forall_mem_cons.mpr ⟨.int 1, List.forall_mem_singleton.mpr (.int 2)⟩
  obtain ⟨stops, -⟩ := access_faults false proper
  obtain ⟨writes, -⟩ := access_faults true proper
  obtain ⟨-, reads, differs, picks⟩ := access_faults false proper'
  have last : rows.set? ⟨["sums", "+18446744073709551615"]⟩ .null = none := by
    refine (stops _ _).1.mpr ⟨[], "+18446744073709551615", ?_, by decide +kernel⟩
    exact List.mem_cons_of_mem _ List.mem_cons_self
  refine ⟨?_, ?_, ?_, ?_, ?_, ?_⟩
  · rw [(stops ⟨_⟩ _).2, last]
    rfl
  · rw [(writes ⟨_⟩ _).2, last]
    rfl
  · rw [(writes ⟨_⟩ _).2]
    rfl
  · exact reads ⟨["rows", "1"]⟩
  · exact differs rows proper
  · exact picks marks

end LiveForm
