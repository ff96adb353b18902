import LiveForm.Proofs.Marks

/-!
# Marks as sets of covered paths

A map of marks stands for the paths that it covers: those that are marked and all below them.

* `DirtyTree.isMarked_iff`: a path is covered iff a leaf lies on it;
* `DirtyTree.touches_mark`: a mark touches what is at, below and above its path;
* `DirtyTree.Bearing.ext`: maps that cover the same paths are the same;
* `DirtyTree.leaf_of_mark`: a leaf is a path that has been marked;
* `DirtyFields.touches_iff`: a path is touched iff it is at, above or below a leaf;
* `marks_cover`: so it does not count in which order paths are marked, and how often, and a map is
  made again by the paths that it lists.
-/

set_option autoImplicit false

namespace LiveForm

namespace DirtyTree

variable {s : String} {t t' : DirtyTree} {m m' : List (String × DirtyTree)} {p q : List String}

/-- A mark touches what is at, below and above its path, beside what has been touched before. -/
theorem touches_mark (named : p ≠ []) (m : List (String × DirtyTree)) (q : List String) :
    touches (mark m p) q = (touches m q || p.isPrefixOf q || q.isPrefixOf p) := by
  induction p generalizing m q with
  | nil => exact absurd rfl named
  | cons s p ih =>
    cases q with
    | nil => simp [touches]
    | cons s' q =>
      rw [touches_cons, touches_cons, List.isPrefixOf_cons_cons, List.isPrefixOf_cons_cons]
      by_cases same : s = s'
      · subst same
        rw [beq_self_eq_true, Bool.true_and, Bool.true_and]
        cases p with
        | nil => simp [mark, reached]
        | cons next p =>
          have below := ih (List.cons_ne_nil next p)
          cases there : Assoc.find? s m with
          | none =>
            rw [mark, there, Assoc.find?_insert_self, reached, reached, below, Bool.false_or]
            cases q <;> simp [touches]
          | some t => cases t <;> simp [mark, there, reached, below]
      · have other : (s' == s) = false := beq_eq_false_iff_ne.mpr (Ne.symm same)
        rw [find?_mark_ne same, beq_eq_false_iff_ne.mpr same, other]
        simp

/-! ## Leaves -/

theorem at?_append (t : DirtyTree) (p q : List String) :
    t.at? (p ++ q) = (t.at? p).bind fun u => u.at? q := by
  induction p generalizing t with
  | nil => rfl
  | cons s p ih =>
    cases t with
    | leaf => rfl
    | branch children =>
      rw [List.cons_append, at?, at?, Option.bind_assoc]
      exact Option.bind_congr fun u _ => ih u

/-- No leaf lies below another. -/
theorem leaf_eq_of_prefix (leaf : t.at? p = some .leaf) (leaf' : t.at? q = some .leaf)
    (above : p <+: q) : p = q := by
  obtain ⟨rest, rfl⟩ := above
  rw [at?_append, leaf, Option.bind_some] at leaf'
  cases rest with
  | nil => exact (List.append_nil p).symm
  | cons => cases leaf'

theorem covers_iff : covers (some t) q = true ↔ ∃ p, t.at? p = some .leaf ∧ p <+: q := by
  induction q generalizing t with
  | nil =>
    cases t with
    | leaf => exact iff_of_true rfl ⟨[], rfl, List.nil_prefix⟩
    | branch children => simp [covers, isMarked, at?]
  | cons s q ih =>
    cases t with
    | leaf => exact iff_of_true rfl ⟨[], rfl, List.nil_prefix⟩
    | branch children =>
      rw [covers, isMarked_cons]
      constructor
      · intro covered
        cases found : Assoc.find? s children with
        | none => simp [found, covers] at covered
        | some u =>
          obtain ⟨p, leaf, above⟩ := ih.mp (found ▸ covered)
          refine ⟨s :: p, ?_, List.cons_prefix_cons.mpr ⟨rfl, above⟩⟩
          rw [at?, found]
          exact leaf
      · rintro ⟨p, leaf, above⟩
        cases p with
        | nil => cases leaf
        | cons s' p =>
          obtain ⟨rfl, onward⟩ := List.cons_prefix_cons.mp above
          obtain ⟨u, found, leaf⟩ := Option.bind_eq_some_iff.mp leaf
          rw [found]
          exact ih.mpr ⟨p, leaf, onward⟩

/-- A path is covered iff a leaf lies on it. -/
theorem isMarked_iff :
    isMarked m q = true ↔ ∃ p, (branch m).at? p = some .leaf ∧ p <+: q :=
  covers_iff (t := .branch m)

theorem reached_iff (h : Bears t) :
    reached (some t) q = true ↔ ∃ p, t.at? p = some .leaf ∧ (p <+: q ∨ q <+: p) := by
  induction q generalizing t with
  | nil =>
    obtain ⟨p, way⟩ := List.exists_mem_of_ne_nil _ (leafPaths_ne_nil h)
    have whole : reached (some t) [] = true := by
      cases t with
      | leaf => rfl
      | branch children => rw [reached, touches]
    exact iff_of_true whole ⟨p, (mem_leafPaths h p).mp way, .inr List.nil_prefix⟩
  | cons s q ih =>
    cases t with
    | leaf => exact iff_of_true rfl ⟨[], rfl, .inl List.nil_prefix⟩
    | branch children =>
      rw [reached, touches_cons]
      constructor
      · intro touched
        cases found : Assoc.find? s children with
        | none => simp [found, reached] at touched
        | some u =>
          have below := h.children.each _ (Assoc.mem_of_find? found)
          obtain ⟨p, leaf, beside⟩ := (ih below).mp (found ▸ touched)
          refine ⟨s :: p, ?_, ?_⟩
          · rw [at?, found]
            exact leaf
          · rwa [List.cons_prefix_cons, List.cons_prefix_cons, and_iff_right rfl, and_iff_right rfl]
      · rintro ⟨p, leaf, beside⟩
        cases p with
        | nil => cases leaf
        | cons s' p =>
          obtain ⟨u, found, leaf⟩ := Option.bind_eq_some_iff.mp leaf
          have below := h.children.each _ (Assoc.mem_of_find? found)
          rw [List.cons_prefix_cons, List.cons_prefix_cons] at beside
          obtain rfl : s' = s := beside.elim And.left fun onward => onward.1.symm
          rw [found]
          exact (ih below).mpr ⟨p, leaf, beside.imp And.right And.right⟩

/-- A leaf is where a path has been marked. -/
theorem leaf_of_mark (leaf : (branch (mark m p)).at? q = some .leaf) :
    q = p ∨ (branch m).at? q = some .leaf := by
  induction p generalizing m q with
  | nil => exact .inr leaf
  | cons s p ih =>
    cases q with
    | nil => cases leaf
    | cons s' q =>
      obtain ⟨t, found, onward⟩ := Option.bind_eq_some_iff.mp leaf
      by_cases same : s = s'
      · subst same
        cases p with
        | nil =>
          rw [mark, Assoc.find?_insert_self] at found
          cases found
          cases q with
          | nil => exact .inl rfl
          | cons => cases onward
        | cons next p =>
          rw [mark] at found
          split at found
          · refine .inr ?_
            rw [at?, found]
            exact onward
          · rename_i below there
            rw [Assoc.find?_insert_self] at found
            cases found
            refine (ih onward).imp (congrArg (s :: ·)) fun old => ?_
            rw [at?, there]
            exact old
          · rw [Assoc.find?_insert_self] at found
            cases found
            refine (ih onward).imp (congrArg (s :: ·)) fun old => ?_
            cases q <;> cases old
      · rw [find?_mark_ne same] at found
        refine .inr ?_
        rw [at?, found]
        exact onward

/-! ## Maps that cover the same paths -/

/-- A tree that bears leaves covers some path. -/
theorem Bears.covers_some (h : Bears t) : ∃ q, covers (some t) q = true := by
  obtain ⟨q, way⟩ := List.exists_mem_of_ne_nil _ (leafPaths_ne_nil h)
  exact ⟨q, covers_iff.mpr ⟨q, (mem_leafPaths h q).mp way, List.prefix_rfl⟩⟩

/-- Levels that cover the same paths are the same, if this holds of the trees in them. -/
theorem Bearing.ext_of (h : Bearing m) (h' : Bearing m')
    (each : ∀ e ∈ m, ∀ t', Bears t' → (∀ q, covers (some e.2) q = covers (some t') q) → e.2 = t')
    (same : ∀ q, isMarked m q = isMarked m' q) : m = m' := by
  refine h.sorted.ext h'.sorted fun s => ?_
  have below (rest : List String) :
      covers (Assoc.find? s m) rest = covers (Assoc.find? s m') rest := by
    rw [← isMarked_cons, ← isMarked_cons, same]
  cases found : Assoc.find? s m with
  | none =>
    cases found' : Assoc.find? s m' with
    | none => rfl
    | some t' =>
      obtain ⟨q, covered⟩ := (h'.each _ (Assoc.mem_of_find? found')).covers_some
      rw [← found', ← below, found] at covered
      cases covered
  | some t =>
    have inside := Assoc.mem_of_find? found
    cases found' : Assoc.find? s m' with
    | none =>
      obtain ⟨q, covered⟩ := (h.each _ inside).covers_some
      rw [← found, below, found'] at covered
      cases covered
    | some t' =>
      rw [found, found'] at below
      exact congrArg some
        (each _ inside t' (h'.each _ (Assoc.mem_of_find? found')) below)

theorem Bears.eq_of_covers (h : Bears t) (h' : Bears t')
    (same : ∀ q, covers (some t) q = covers (some t') q) : t = t' := by
  induction h generalizing t' with
  | leaf =>
    cases h' with
    | leaf => rfl
    | branch => cases same []
  | branch _ sorted each ih =>
    cases h' with
    | leaf => cases same []
    | branch _ sorted' each' =>
      have children := Bearing.ext_of ⟨sorted, each⟩ ⟨sorted', each'⟩
        (fun e inside _ => ih e inside) same
      rw [children]

/-- Maps that cover the same paths are the same. -/
theorem Bearing.ext (h : Bearing m) (h' : Bearing m')
    (same : ∀ q, isMarked m q = isMarked m' q) : m = m' :=
  h.ext_of h' (fun e inside _ => (h.each e inside).eq_of_covers) same

end DirtyTree

open DirtyTree

namespace DirtyFields

variable {d d' : DirtyFields} {p q : FieldPath} {marks marks' : List FieldPath}

/-- Marks one path after another. -/
def ofMarks (marks : List FieldPath) : DirtyFields := marks.foldl mark .empty

theorem isMarked_mark_iff (d : DirtyFields) (p q : FieldPath) :
    (d.mark p).isMarked q = true ↔
      d.isMarked q = true ∨ p.segments ≠ [] ∧ q.startsWith p = true := by
  by_cases named : p.segments = []
  · rw [mark, named]
    simp [DirtyTree.mark]
  · rw [isMarked, mark, DirtyTree.isMarked_mark named, Bool.or_eq_true, and_iff_right named]
    rfl

/-- A path is touched iff it is at, above or below a leaf. The path without segments always is. -/
theorem touches_iff (h : Bearing d.children) : d.touches p = true ↔
    (p.segments ≠ [] → ∃ q, d.HasLeaf q ∧ (q <+: p.segments ∨ p.segments <+: q)) := by
  by_cases whole : p.segments = []
  · refine iff_of_true ?_ fun named => absurd whole named
    rw [touches, whole, DirtyTree.touches]
  · rw [imp_iff_right whole]
    by_cases bare : d.children = []
    · obtain ⟨s, rest, segments⟩ := List.exists_cons_of_ne_nil whole
      rw [touches, bare, segments, DirtyTree.touches_cons]
      refine iff_of_false Bool.false_ne_true ?_
      rintro ⟨q, leaf, -⟩
      rw [HasLeaf, bare] at leaf
      cases q <;> cases leaf
    · exact reached_iff (h.bears bare)

theorem touches_mark_iff (named : p.segments ≠ []) (d : DirtyFields) (q : FieldPath) :
    (d.mark p).touches q = true ↔
      d.touches q = true ∨ q.startsWith p = true ∨ p.startsWith q = true := by
  rw [touches, mark, DirtyTree.touches_mark named, Bool.or_eq_true, Bool.or_eq_true, or_assoc]
  rfl

theorem foldl_mark_bearing (h : Bearing d.children) : Bearing (marks.foldl mark d).children := by
  induction marks generalizing d with
  | nil => exact h
  | cons p marks ih => exact ih (h.mark p.segments)

theorem ofMarks_bearing (marks : List FieldPath) : Bearing (ofMarks marks).children :=
  foldl_mark_bearing .empty

theorem isMarked_foldl_mark : (marks.foldl mark d).isMarked q = true ↔
    d.isMarked q = true ∨ ∃ p ∈ marks, p.segments ≠ [] ∧ q.startsWith p = true := by
  induction marks generalizing d with
  | nil => simp
  | cons p marks ih =>
    rw [List.foldl_cons, ih, isMarked_mark_iff, or_assoc]
    simp

theorem isMarked_ofMarks : (ofMarks marks).isMarked q = true ↔
    ∃ p ∈ marks, p.segments ≠ [] ∧ q.startsWith p = true := by
  have none : DirtyFields.empty.isMarked q = false := isMarked_nil
  rw [ofMarks, isMarked_foldl_mark, none]
  simp

theorem leaf_of_foldl_mark {segments : List String}
    (leaf : (marks.foldl mark d).HasLeaf segments) : ⟨segments⟩ ∈ marks ∨ d.HasLeaf segments := by
  induction marks generalizing d with
  | nil => exact .inr leaf
  | cons p marks ih =>
    rcases ih leaf with inside | old
    · exact .inl (List.mem_cons_of_mem _ inside)
    · refine (leaf_of_mark old).imp_left ?_
      rintro rfl
      exact List.mem_cons_self

/-- A leaf is at the end of a path that has been marked. -/
theorem mem_of_leaf {segments : List String} (leaf : (ofMarks marks).HasLeaf segments) :
    ⟨segments⟩ ∈ marks := by
  refine (leaf_of_foldl_mark leaf).resolve_right fun none => ?_
  cases segments <;> cases none

theorem ext_isMarked (h : Bearing d.children) (h' : Bearing d'.children)
    (same : ∀ q, d.isMarked q = true ↔ d'.isMarked q = true) : d = d' := by
  have children : d.children = d'.children :=
    h.ext h' fun q => Bool.eq_iff_iff.mpr (same ⟨q⟩)
  cases d
  cases d'
  exact congrArg DirtyFields.mk children

/-- The paths that are listed make the map again. -/
theorem ofMarks_paths (h : Bearing d.children) (filled : ∀ q, d.HasLeaf q → "" ∉ q) :
    ofMarks d.paths = d := by
  refine ext_isMarked (ofMarks_bearing _) h fun q => ?_
  rw [isMarked_ofMarks, isMarked, DirtyTree.isMarked_iff]
  constructor
  · rintro ⟨p, listed, -, above⟩
    exact ⟨p.segments, ((mem_paths h).mp listed).1, List.isPrefixOf_iff_prefix.mp above⟩
  · rintro ⟨p, leaf, above⟩
    refine ⟨⟨p⟩, (mem_paths h).mpr ⟨leaf, filled p leaf⟩, ?_, List.isPrefixOf_iff_prefix.mpr above⟩
    rintro rfl
    cases leaf

end DirtyFields

open DirtyFields

/-- The marks that come about by marking paths are a set of subtrees that are covered:

* a mark covers what is at and below its path, and touches also what is above;
* to mark a path twice is to mark it once, and of two marks either can be made first;
* so two runs of marks that mark the same paths make the same map, in whatever order and however
  often;
* the paths of the map are listed in order, none of them above another;
* to mark them makes the map again. -/
theorem marks_cover (marks : List FieldPath)
    (named : ∀ p ∈ marks, p.segments ≠ [] ∧ "" ∉ p.segments) :
    let d := ofMarks marks
    (∀ p q : FieldPath, p.segments ≠ [] →
      ((d.mark p).isMarked q = true ↔ d.isMarked q = true ∨ q.startsWith p = true) ∧
      ((d.mark p).touches q = true ↔
        d.touches q = true ∨ q.startsWith p = true ∨ p.startsWith q = true)) ∧
    (∀ p, (d.mark p).mark p = d.mark p) ∧
    (∀ p q, (d.mark p).mark q = (d.mark q).mark p) ∧
    (∀ marks', (∀ p, p ∈ marks' ↔ p ∈ marks) → ofMarks marks' = d) ∧
    d.paths.Pairwise (· < ·) ∧
    (∀ p ∈ d.paths, ∀ q ∈ d.paths, q.startsWith p = true → p = q) ∧
    ofMarks d.paths = d := by
  intro d
  have bearing : Bearing d.children := ofMarks_bearing marks
  refine ⟨?_, ?_, ?_, ?_, paths_sorted bearing, ?_, ?_⟩
  · intro p q given
    refine ⟨?_, touches_mark_iff given d q⟩
    rw [isMarked_mark_iff, and_iff_right given]
  · intro p
    refine ext_isMarked ((bearing.mark _).mark _) (bearing.mark _) fun q => ?_
    simp only [isMarked_mark_iff, or_assoc, or_self]
  · intro p q
    refine ext_isMarked ((bearing.mark _).mark _) ((bearing.mark _).mark _) fun r => ?_
    simp only [isMarked_mark_iff]
    exact or_right_comm
  · intro marks' same
    refine ext_isMarked (ofMarks_bearing _) bearing fun q => ?_
    simp only [d, isMarked_ofMarks, same]
  · intro p listed q listed' above
    have leaf := ((mem_paths bearing).mp listed).1
    have leaf' := ((mem_paths bearing).mp listed').1
    have same := leaf_eq_of_prefix leaf leaf' (List.isPrefixOf_iff_prefix.mp above)
    cases p
    cases q
    exact congrArg FieldPath.mk same
  · exact ofMarks_paths bearing fun q leaf => (named _ (mem_of_leaf leaf)).2

/-- A colour, a row and the area of the colour are marked. The area covers its colour, and so it does if
it is marked first, and twice. -/
theorem marks_cover_area :
    let d := ofMarks [⟨["area", "color"]⟩, ⟨["rows", "1"]⟩, ⟨["area"]⟩]
    d.paths = [⟨["area"]⟩, ⟨["rows", "1"]⟩] ∧
      ofMarks [⟨["area"]⟩, ⟨["rows", "1"]⟩, ⟨["area", "color"]⟩, ⟨["area"]⟩] = d ∧
      ofMarks d.paths = d ∧
      (d.mark ⟨["rows", "0"]⟩).touches ⟨["rows"]⟩ = true ∧
      (d.mark ⟨["rows", "0"]⟩).isMarked ⟨["rows", "0", "name"]⟩ = true := by
  intro d
  obtain ⟨each, -, -, same, -, -, again⟩ :=
    marks_cover [⟨["area", "color"]⟩, ⟨["rows", "1"]⟩, ⟨["area"]⟩] (by simp)
  refine ⟨by decide +kernel, same _ fun p => ?_, again, ?_, ?_⟩
  · grind
  · exact (each _ _ (by simp)).2.mpr (.inr (.inr (by decide)))
  · exact (each _ _ (by simp)).1.mpr (.inr (by decide))

end LiveForm
