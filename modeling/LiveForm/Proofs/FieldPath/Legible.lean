import LiveForm.Proofs.FieldPath.Grammar
import LiveForm.Proofs.Leaves

/-!
# Paths that are read as they are shown

A path is shown as its segments with points between them. This is the shortest text that spells the
segments, and only plain segments are spelled by it.

* `FieldPath.Legible`: no segment has a point or an opening bracket in it, and no blank stands at the
  ends of the path;
* `Chain.length_le`, `Chain.named`: a chain has a point or a bracket for each segment, and one that
  has no more than that consists of names;
* `display_legible`: a path is read as it is shown iff it is legible.
-/

set_option autoImplicit false

namespace LiveForm.FieldPath

open Text

variable {p q : FieldPath} {s : String} {cs : List Char} {segments others : List String}

/-- Nothing in the text that shows a path is taken for more than it is. -/
structure Legible (p : FieldPath) : Prop where
  plain : ∀ s ∈ p.segments, '.' ∉ s.toList ∧ '[' ∉ s.toList
  front : ∀ s ∈ p.segments.head?, ∀ c ∈ s.toList.head?, isBlank c = false
  back : ∀ s ∈ p.segments.getLast?, ∀ c ∈ s.toList.getLast?, isBlank c = false

/-- A path that has been read, or made of segments. -/
def Made (p : FieldPath) : Prop :=
  (∃ text, parse text = .ok p) ∨ ∃ segments, ofSegments segments = .ok p

theorem Made.filled (made : p.Made) : p.segments ≠ [] ∧ "" ∉ p.segments := by
  rcases made with ⟨text, read⟩ | ⟨segments, made⟩
  · exact (parse_eq_ok.mp read).filled
  · have made : (ofSegments segments).toOption = some p := by rw [made]; rfl
    obtain ⟨some, filled, rfl⟩ := ofSegments_eq_some.mp made
    exact ⟨some, filled⟩

/-! ## The text that shows a path -/

/-- What is shown behind the first segment. -/
def pointed (others : List String) : List Char := others.flatMap fun s => '.' :: s.toList

theorem display_toList (s : String) (others : List String) :
    (display ⟨s :: others⟩).toList = s.toList ++ pointed others := by
  induction others generalizing s with
  | nil => simp [display, pointed]
  | cons next others ih =>
    have split : display ⟨s :: next :: others⟩ = s ++ "." ++ display ⟨next :: others⟩ :=
      String.intercalate_cons_cons
    rw [split, String.toList_append, ih]
    simp [pointed]

theorem isName_iff (filled : s ≠ "") : IsName s.toList ↔ '.' ∉ s.toList ∧ '[' ∉ s.toList := by
  have some : s.toList ≠ [] := by simpa using filled
  constructor
  · intro name
    constructor
    · intro inside
      exact (name.plain _ inside).1 rfl
    · intro inside
      exact (name.plain _ inside).2 rfl
  · rintro ⟨point, bracket⟩
    refine ⟨some, fun c inside => ⟨?_, ?_⟩⟩
    · rintro rfl
      exact point inside
    · rintro rfl
      exact bracket inside

theorem display_head? (filled : s ≠ "") :
    (display ⟨s :: others⟩).toList.head? = s.toList.head? := by
  have some : s.toList ≠ [] := by simpa using filled
  rw [display_toList, List.head?_append_of_ne_nil _ some]

theorem display_getLast? (filled : s ≠ "") :
    (display ⟨others ++ [s]⟩).toList.getLast? = s.toList.getLast? := by
  have some : s.toList ≠ [] := by simpa using filled
  cases others with
  | nil => rw [List.nil_append, display_toList, pointed, List.flatMap_nil, List.append_nil]
  | cons first others =>
    have last : pointed (others ++ [s]) = pointed others ++ ['.'] ++ s.toList := by
      simp [pointed]
    rw [List.cons_append, display_toList, last, ← List.append_assoc,
      List.getLast?_append_of_ne_nil _ some]

/-- The ends of the text are those of the first and of the last segment. -/
theorem trimmed_display_iff (some : p.segments ≠ []) (filled : "" ∉ p.segments) :
    Trimmed p.display.toList ↔
      (∀ s ∈ p.segments.head?, ∀ c ∈ s.toList.head?, isBlank c = false) ∧
        ∀ s ∈ p.segments.getLast?, ∀ c ∈ s.toList.getLast?, isBlank c = false := by
  obtain ⟨segments⟩ := p
  have front : ∀ s ∈ segments.head?,
      (display ⟨segments⟩).toList.head? = s.toList.head? := by
    intro s first
    obtain ⟨others, rfl⟩ := List.head?_eq_some_iff.mp first
    exact display_head? fun empty => filled (empty ▸ List.mem_cons_self)
  have back : ∀ s ∈ segments.getLast?,
      (display ⟨segments⟩).toList.getLast? = s.toList.getLast? := by
    intro s last
    obtain ⟨others, rfl⟩ := List.getLast?_eq_some_iff.mp last
    exact display_getLast? fun empty => filled (by simp [empty])
  constructor
  · rintro ⟨start, stop⟩
    exact ⟨fun s first => front s first ▸ start, fun s last => back s last ▸ stop⟩
  · rintro ⟨start, stop⟩
    constructor
    · have first := List.head?_eq_some_head some
      exact front _ first ▸ start _ first
    · have last := List.getLast?_eq_some_getLast some
      exact back _ last ▸ stop _ last

/-! ## Counting characters -/

theorem Bare.length_le {segment : List Char} (h : Bare cs segment) :
    segment.length ≤ cs.length := by
  cases h with
  | quoted =>
    simp only [List.length_cons, List.length_append]
    omega
  | plain => exact Nat.le_refl _

theorem Inside.length_le {segment : List Char} (h : Inside cs segment) :
    segment.length ≤ cs.length :=
  Nat.le_trans h.bare.length_le (trimChars_isInfix cs).length_le

/-- A link has a point or a bracket beside its segment, and more than that if it is no name. -/
theorem Link.length_le (h : Link cs s) : s.toList.length + 1 ≤ cs.length ∧
    (cs.length ≤ s.toList.length + 1 → IsName s.toList) := by
  cases h with
  | name name =>
    rw [String.toList_ofList]
    exact ⟨Nat.le_refl _, fun _ => name⟩
  | bracket inside | pointed inside =>
    have short := inside.length_le
    simp only [String.toList_ofList, List.length_cons, List.length_append]
    omega

theorem Chain.length_le (h : Chain cs segments) : (pointed segments).length ≤ cs.length := by
  induction h with
  | done => exact Nat.le_refl _
  | link first _ ih =>
    have first := first.length_le.1
    simp only [pointed, List.flatMap_cons, List.length_append, List.length_cons] at ih ⊢
    omega

/-- A chain that is no longer than the text that shows its segments consists of names. -/
theorem Chain.named (h : Chain cs segments) (short : cs.length ≤ (pointed segments).length) :
    ∀ s ∈ segments, IsName s.toList := by
  induction h with
  | done => exact nofun
  | link first more ih =>
    obtain ⟨long, named⟩ := first.length_le
    have rest := more.length_le
    simp only [pointed, List.flatMap_cons, List.length_append, List.length_cons] at short rest ih
    refine List.forall_mem_cons.mpr ⟨named ?_, ih ?_⟩
    · omega
    · omega

theorem chain_of_named (named : ∀ s ∈ segments, IsName s.toList) :
    Chain (pointed segments) segments := by
  induction segments with
  | nil => exact .done
  | cons s segments ih =>
    obtain ⟨first, named⟩ := List.forall_mem_cons.mp named
    have link : Link ('.' :: s.toList) s := by
      simpa using Link.name first
    exact .link link (ih named)

/-- The text that shows a path spells its segments iff the path is legible. -/
theorem spells_display_iff (some : p.segments ≠ []) (filled : "" ∉ p.segments) :
    Spells (trimChars p.display.toList) p.segments ↔ p.Legible := by
  have ends := trimmed_display_iff some filled
  obtain ⟨segments⟩ := p
  obtain ⟨s, others, rfl⟩ := List.exists_cons_of_ne_nil some
  have names (s' : String) (inside : s' ∈ s :: others) :
      IsName s'.toList ↔ '.' ∉ s'.toList ∧ '[' ∉ s'.toList :=
    isName_iff fun empty => filled (empty ▸ inside)
  have shown := display_toList s others
  constructor
  · intro spells
    obtain ⟨front, rest, others', name, more, split, same⟩ := spells_iff.mp spells
    obtain ⟨rfl, rfl⟩ := List.cons_eq_cons.mp same
    rw [String.toList_ofList] at shown
    have fits := (trimChars_isInfix (display ⟨String.ofList front :: others⟩).toList).length_le
    have long := more.length_le
    have sizes := congrArg List.length split
    rw [List.length_append] at sizes
    -- the text is too short for anything but names, and no blank has been taken off
    have size := congrArg List.length shown
    rw [List.length_append] at size
    have short : rest.length ≤ (pointed others).length := by omega
    have whole : trimChars (display ⟨String.ofList front :: others⟩).toList =
        (display ⟨String.ofList front :: others⟩).toList := by
      apply (trimChars_isInfix _).eq_of_length_le
      omega
    have trimmed := ends.mp (whole ▸ trimmed_trimChars _)
    refine ⟨?_, trimmed.1, trimmed.2⟩
    intro s inside
    apply (names s inside).mp
    rcases List.mem_cons.mp inside with rfl | inside
    · rwa [String.toList_ofList]
    · exact more.named short s inside
  · intro legible
    have trimmed := ends.mpr ⟨legible.front, legible.back⟩
    have named : ∀ s' ∈ s :: others, IsName s'.toList := fun s' inside =>
      (names s' inside).mpr (legible.plain s' inside)
    obtain ⟨first, named⟩ := List.forall_mem_cons.mp named
    have spells := Spells.name first (chain_of_named named)
    rw [String.ofList_toList] at spells
    rw [trimmed.trimChars, shown]
    exact spells

/-- A path that has been read, or made of segments, is read again as it is shown iff no segment has a
point or an opening bracket in it and no blank stands at either end. So the text tells such paths
apart; of any other path the text is refused, or names a different one. -/
theorem display_legible {p : FieldPath} (made : p.Made) :
    (parse p.display = .ok p ↔ p.Legible) ∧
    (p.Legible → ∀ q : FieldPath, q.Made → q.Legible → q.display = p.display → q = p) ∧
    (¬ p.Legible → (∃ e, parse p.display = .error e) ∨ ∃ q, parse p.display = .ok q ∧ q ≠ p) := by
  have reads {p : FieldPath} (made : p.Made) : parse p.display = .ok p ↔ p.Legible :=
    parse_eq_ok.trans (spells_display_iff made.filled.1 made.filled.2)
  refine ⟨reads made, ?_, ?_⟩
  · intro legible q made' legible' same
    have read := (reads made).mpr legible
    rw [← same, (reads made').mpr legible'] at read
    exact Except.ok.inj read
  · intro illegible
    cases read : parse p.display with
    | error e => exact .inl ⟨e, rfl⟩
    | ok q =>
      refine .inr ⟨q, rfl, ?_⟩
      rintro rfl
      exact illegible ((reads made).mp read)

/-- The display text of a path with a bracket in one segment names another path, that of a path with
blanks inside names the path itself. -/
theorem display_legible_bracket :
    Made ⟨["a[0]", "b"]⟩ ∧ parse (display ⟨["a[0]", "b"]⟩) = .ok ⟨["a", "0", "b"]⟩ ∧
    ¬ Legible ⟨["a[0]", "b"]⟩ ∧
    Made ⟨["a b", "]"]⟩ ∧ Legible ⟨["a b", "]"]⟩ ∧
    parse (display ⟨["a b", "]"]⟩) = .ok ⟨["a b", "]"]⟩ := by
  have made : Made ⟨["a[0]", "b"]⟩ := .inr ⟨["a[0]", "b"], rfl⟩
  have made' : Made ⟨["a b", "]"]⟩ := .inr ⟨["a b", "]"], rfl⟩
  have read : parse (display ⟨["a[0]", "b"]⟩) = .ok ⟨["a", "0", "b"]⟩ := by rfl
  have read' : parse (display ⟨["a b", "]"]⟩) = .ok ⟨["a b", "]"]⟩ := by rfl
  refine ⟨made, read, ?_, made', (display_legible made').1.mp read', read'⟩
  intro legible
  have same := (display_legible made).1.mpr legible
  rw [read] at same
  have parts := congrArg FieldPath.segments (Except.ok.inj same)
  revert parts
  decide

end LiveForm.FieldPath
