import Mathlib.Data.List.DropRight
import Mathlib.Data.List.Infix
import LiveForm.FieldPath.Parser

/-!
# The grammar of paths

A path is a name, followed by names behind points and by segments in brackets, which may have a point
in front.

* `FieldPath.Spells`: which segments a text of this grammar spells;
* `Place.move`, `scan_cons`: what one character does to the reader;
* `Place.Continues`, `continues_cons`: what the grammar allows from where the reader stands;
* `scan_eq_ok`, `scan_position`: the reader takes what the grammar allows, and it misses a segment
  right behind the longest part of the text that could go on;
* `parse_grammar`: both for whole texts.
-/

set_option autoImplicit false

namespace LiveForm

/-! ## Blanks around a text -/

namespace Text

variable {cs : List Char}

/-- No blank stands at either end. -/
structure Trimmed (cs : List Char) : Prop where
  front : ∀ c ∈ cs.head?, isBlank c = false
  back : ∀ c ∈ cs.getLast?, isBlank c = false

theorem trimStart_eq_self : trimStart cs = cs ↔ ∀ c ∈ cs.head?, isBlank c = false := by
  rw [trimStart, List.dropWhile_eq_self_iff]
  cases cs <;> simp

theorem trimEnd_eq_self : trimEnd cs = cs ↔ ∀ c ∈ cs.getLast?, isBlank c = false := by
  show List.rdropWhile isBlank cs = cs ↔ _
  rw [List.rdropWhile_eq_self_iff]
  by_cases none : cs = []
  · simp [none]
  · simp [List.getLast?_eq_some_getLast none, none]

theorem trimEnd_isPrefix (cs : List Char) : trimEnd cs <+: cs := List.rdropWhile_prefix isBlank cs

theorem trimChars_isInfix (cs : List Char) : trimChars cs <:+: cs :=
  (trimEnd_isPrefix _).isInfix.trans (List.dropWhile_suffix _).isInfix

theorem Trimmed.trimChars (h : Trimmed cs) : trimChars cs = cs := by
  rw [Text.trimChars, trimStart_eq_self.mpr h.front, trimEnd_eq_self.mpr h.back]

theorem trimmed_trimChars (cs : List Char) : Trimmed (trimChars cs) := by
  constructor
  · intro c front
    obtain ⟨rest, split⟩ := trimEnd_isPrefix (trimStart cs)
    have front : (trimStart cs).head? = some c := by
      rw [← split, List.head?_append, show (trimEnd (trimStart cs)).head? = some c from front,
        Option.some_or]
    have still : trimStart (trimStart cs) = trimStart cs := List.dropWhile_idempotent isBlank cs
    exact trimStart_eq_self.mp still c front
  · exact trimEnd_eq_self.mp (List.rdropWhile_idempotent isBlank (trimStart cs))

theorem byteLength_eq (cs : List Char) : byteLength cs = (String.ofList cs).utf8ByteSize := by
  induction cs with
  | nil => rfl
  | cons c cs ih =>
    have split : String.ofList (c :: cs) = String.singleton c ++ String.ofList cs := by
      rw [String.singleton_eq_ofList, ← String.ofList_append]
      rfl
    rw [split, String.utf8ByteSize_append, String.utf8ByteSize_singleton, ← ih]
    rfl

end Text

namespace FieldPath

open Text

variable {c : Char} {cs : List Char} {s : String} {segments : List String}

/-! ## The grammar -/

/-- A run of characters that may stand as a name. -/
structure IsName (cs : List Char) : Prop where
  filled : cs ≠ []
  plain : ∀ c ∈ cs, c ≠ '.' ∧ c ≠ '['

/-- One pair of equal quotes is taken off, if there is one. -/
inductive Bare : List Char → List Char → Prop where
  | quoted {q : Char} {cs : List Char} : q = '"' ∨ q = '\'' → Bare (q :: (cs ++ [q])) cs
  | plain {cs : List Char} : (∀ q ds, q = '"' ∨ q = '\'' → cs ≠ q :: (ds ++ [q])) → Bare cs cs

/-- What may stand in a bracket, and the segment that it spells. Neither blanks around it nor quotes
around the rest count. -/
structure Inside (cs segment : List Char) : Prop where
  unclosed : ']' ∉ cs
  bare : Bare (trimChars cs) segment
  filled : segment ≠ []

/-- What may follow a segment, and the segment that it spells. -/
inductive Link : List Char → String → Prop where
  | name {cs : List Char} : IsName cs → Link ('.' :: cs) (String.ofList cs)
  | bracket {cs segment : List Char} : Inside cs segment →
      Link ('[' :: (cs ++ [']'])) (String.ofList segment)
  | pointed {cs segment : List Char} : Inside cs segment →
      Link ('.' :: '[' :: (cs ++ [']'])) (String.ofList segment)

inductive Chain : List Char → List String → Prop where
  | done : Chain [] []
  | link {cs rest : List Char} {s : String} {segments : List String} : Link cs s →
      Chain rest segments → Chain (cs ++ rest) (s :: segments)

/-- The text is a path of these segments. -/
inductive Spells : List Char → List String → Prop where
  | name {cs rest : List Char} {segments : List String} : IsName cs → Chain rest segments →
      Spells (cs ++ rest) (String.ofList cs :: segments)

theorem bare_iff {cs bare : List Char} : Bare cs bare ↔ unquote cs = bare := by
  constructor
  · intro h
    cases h with
    | quoted quote => simp [unquote, quote]
    | plain unquoted =>
      cases cs with
      | nil => rfl
      | cons q rest =>
        have single : ¬ ((q = '"' ∨ q = '\'') ∧ rest.getLast? = some q) := by
          rintro ⟨quote, last⟩
          obtain ⟨ds, rfl⟩ := List.getLast?_eq_some_iff.mp last
          exact unquoted q ds quote rfl
        rw [unquote, if_neg single]
  · rintro rfl
    cases cs with
    | nil => exact .plain nofun
    | cons q rest =>
      rw [unquote]
      split
      · rename_i quoted
        obtain ⟨ds, rfl⟩ := List.getLast?_eq_some_iff.mp quoted.2
        rw [List.dropLast_concat]
        exact .quoted quoted.1
      · rename_i single
        apply Bare.plain
        intro q' ds quote same
        obtain ⟨rfl, rfl⟩ := List.cons_eq_cons.mp same
        exact single ⟨quote, List.getLast?_concat⟩

/-- What goes on behind an opening bracket of which a part has been read. -/
def Closes (read cs : List Char) (segments : List String) : Prop :=
  ∃ more rest segment others, cs = more ++ ']' :: rest ∧ ']' ∉ more ∧
    Bare (trimChars (read ++ more)) segment ∧ segment ≠ [] ∧ Chain rest others ∧
    segments = String.ofList segment :: others

theorem chain_iff : Chain cs segments ↔
    cs = [] ∧ segments = [] ∨ ∃ front rest s others, Link front s ∧ Chain rest others ∧
      cs = front ++ rest ∧ segments = s :: others := by
  constructor
  · intro h
    cases h with
    | done => exact .inl ⟨rfl, rfl⟩
    | link first others => exact .inr ⟨_, _, _, _, first, others, rfl, rfl⟩
  · rintro (⟨rfl, rfl⟩ | ⟨front, rest, s, others, first, more, rfl, rfl⟩)
    · exact .done
    · exact .link first more

theorem spells_iff : Spells cs segments ↔
    ∃ front rest others, IsName front ∧ Chain rest others ∧ cs = front ++ rest ∧
      segments = String.ofList front :: others := by
  constructor
  · rintro ⟨name, more⟩
    exact ⟨_, _, _, name, more, rfl, rfl⟩
  · rintro ⟨front, rest, others, name, more, rfl, rfl⟩
    exact .name name more

theorem chain_nil : Chain [] segments ↔ segments = [] := by
  rw [chain_iff]
  constructor
  · rintro (⟨-, none⟩ | ⟨front, rest, s, others, first, -, split, -⟩)
    · exact none
    · cases first <;> cases split
  · intro none
    exact .inl ⟨rfl, none⟩

theorem chain_bracket : Chain ('[' :: cs) segments ↔ Closes [] cs segments := by
  rw [chain_iff]
  constructor
  · rintro (⟨none, -⟩ | ⟨front, rest, s, others, first, more, split, rfl⟩)
    · cases none
    · cases first with
      | name | pointed => cases split
      | bracket inside =>
        obtain ⟨-, split⟩ := List.cons_eq_cons.mp split
        exact ⟨_, rest, _, others, by simp [split], inside.unclosed, inside.bare, inside.filled,
          more, rfl⟩
  · rintro ⟨inner, rest, segment, others, rfl, unclosed, bare, filled, more, rfl⟩
    exact .inr ⟨_, rest, _, others, .bracket ⟨unclosed, bare, filled⟩, more, by simp, rfl⟩

theorem chain_point : Chain ('.' :: cs) segments ↔
    Spells cs segments ∨ ∃ below, cs = '[' :: below ∧ Closes [] below segments := by
  rw [chain_iff, spells_iff]
  constructor
  · rintro (⟨none, -⟩ | ⟨front, rest, s, others, first, more, split, rfl⟩)
    · cases none
    · cases first with
      | bracket => cases split
      | name name =>
        obtain ⟨-, split⟩ := List.cons_eq_cons.mp split
        exact .inl ⟨_, rest, others, name, more, split, rfl⟩
      | pointed inside =>
        obtain ⟨-, split⟩ := List.cons_eq_cons.mp split
        exact .inr ⟨_, split, _, rest, _, others, by simp, inside.unclosed, inside.bare,
          inside.filled, more, rfl⟩
  · rintro (⟨front, rest, others, name, more, rfl, rfl⟩ |
      ⟨below, rfl, inner, rest, segment, others, rfl, unclosed, bare, filled, more, rfl⟩)
    · exact .inr ⟨_, rest, _, others, .name name, more, rfl, rfl⟩
    · exact .inr ⟨_, rest, _, others, .pointed ⟨unclosed, bare, filled⟩, more, by simp, rfl⟩

theorem not_chain (point : c ≠ '.') (bracket : c ≠ '[') : ¬ Chain (c :: cs) segments := by
  rw [chain_iff]
  rintro (⟨none, -⟩ | ⟨front, rest, s, others, first, -, split, -⟩)
  · cases none
  · cases first with
    | name | pointed => exact point (List.cons_eq_cons.mp split).1
    | bracket => exact bracket (List.cons_eq_cons.mp split).1

/-! ## The reader -/

/-- What the grammar allows from a place on: the text that may follow, and the segments that it
spells together with what has been read of the one at hand. -/
def Place.Continues : Place → List Char → List String → Prop
  | .start, cs, segments => Spells cs segments
  | .name read, cs, segments => ∃ more rest others, cs = more ++ rest ∧
      (∀ c ∈ more, c ≠ '.' ∧ c ≠ '[') ∧ Chain rest others ∧
      segments = String.ofList (read.reverse ++ more) :: others
  | .afterPoint, cs, segments => Chain ('.' :: cs) segments
  | .bracket read, cs, segments => Closes read.reverse cs segments
  | .closed, cs, segments => Chain cs segments

/-- What a character does to the reader. -/
inductive Move where
  /-- The reader goes on at a place, and may have finished a segment. -/
  | on (finished : Option String) (next : Place)
  | misplaced
  /-- A bracket is closed that holds nothing. -/
  | hollow

def Place.move : Place → Char → Move
  | .start, c => if c = '.' ∨ c = '[' then .misplaced else .on none (.name [c])
  | .name read, c =>
    if c = '.' then .on (some (String.ofList read.reverse)) .afterPoint
    else if c = '[' then .on (some (String.ofList read.reverse)) (.bracket [])
    else .on none (.name (c :: read))
  | .afterPoint, c =>
    if c = '.' then .misplaced else if c = '[' then .on none (.bracket []) else .on none (.name [c])
  | .bracket read, c =>
    if c = ']' then
      if (bracketSegment read).isEmpty then .hollow
      else .on (some (String.ofList (bracketSegment read))) .closed
    else .on none (.bracket (c :: read))
  | .closed, c =>
    if c = '.' then .on none .afterPoint else if c = '[' then .on none (.bracket []) else .misplaced

/-- What the text spells that ends at a place, if it may end there. -/
def Place.ending? : Place → Option (List String)
  | .name read => some [String.ofList read.reverse]
  | .closed => some []
  | _ => none

variable {path : String} {place : Place} {done : List String} {pos : Nat}

theorem scan_cons : scan path place done pos (c :: cs) =
    match place.move c with
    | .on finished next => scan path next (finished.toList ++ done) (pos + c.utf8Size) cs
    | .misplaced => .error (.emptySegment path pos)
    | .hollow => .error (.emptyBracket path) := by
  cases place with
  | start =>
    rw [scan, Place.move]
    split <;> rfl
  | name read =>
    rw [scan, Place.move]
    split
    · rename_i point
      rw [point]
      rfl
    split
    · rename_i bracket
      rw [bracket]
      rfl
    · rfl
  | afterPoint =>
    rw [scan, Place.move]
    split
    · rfl
    split
    · rename_i bracket
      rw [bracket]
      rfl
    · rfl
  | bracket read =>
    rw [scan, Place.move, closeBracket]
    split
    · rename_i bracket
      rw [bracket]
      by_cases hollow : (bracketSegment read).isEmpty = true <;> simp [hollow]
      rfl
    · rfl
  | closed =>
    rw [scan, Place.move]
    split
    · rename_i point
      rw [point]
      rfl
    split
    · rename_i bracket
      rw [bracket]
      rfl
    · rfl

/-- What may follow a character, after what it does to the reader. -/
def Move.Allows : Move → List Char → List String → Prop
  | .on finished next, cs, segments =>
    ∃ others, next.Continues cs others ∧ segments = finished.toList ++ others
  | _, _, _ => False

section Continues

variable {read : List Char}

/-- A plain character belongs to the name at hand. -/
theorem continues_name (point : c ≠ '.') (bracket : c ≠ '[') :
    (Place.name read).Continues (c :: cs) segments ↔
      (Place.name (c :: read)).Continues cs segments := by
  simp only [Place.Continues, List.reverse_cons, List.append_assoc, List.singleton_append]
  constructor
  · rintro ⟨more, rest, others, split, plain, chain, rfl⟩
    cases more with
    | nil =>
      obtain rfl : c :: cs = rest := split
      exact absurd chain (not_chain point bracket)
    | cons c' more =>
      obtain ⟨rfl, rfl⟩ := List.cons_eq_cons.mp split
      exact ⟨more, rest, others, rfl, (List.forall_mem_cons.mp plain).2, chain, rfl⟩
  · rintro ⟨more, rest, others, rfl, plain, chain, rfl⟩
    have plain : ∀ c' ∈ c :: more, c' ≠ '.' ∧ c' ≠ '[' :=
      List.forall_mem_cons.mpr ⟨⟨point, bracket⟩, plain⟩
    exact ⟨c :: more, rest, others, rfl, plain, chain, rfl⟩

/-- Any other character ends it. -/
theorem continues_name_end (other : c = '.' ∨ c = '[') :
    (Place.name read).Continues (c :: cs) segments ↔
      ∃ others, Chain (c :: cs) others ∧ segments = String.ofList read.reverse :: others := by
  constructor
  · rintro ⟨more, rest, others, split, plain, chain, rfl⟩
    cases more with
    | nil =>
      obtain rfl : c :: cs = rest := split
      exact ⟨others, chain, by rw [List.append_nil]⟩
    | cons c' more =>
      obtain ⟨rfl, -⟩ := List.cons_eq_cons.mp split
      exact absurd other (not_or.mpr (List.forall_mem_cons.mp plain).1)
  · rintro ⟨others, chain, rfl⟩
    exact ⟨[], c :: cs, others, rfl, nofun, chain, by rw [List.append_nil]⟩

theorem spells_cons : Spells (c :: cs) segments ↔
    (c ≠ '.' ∧ c ≠ '[') ∧ (Place.name [c]).Continues cs segments := by
  rw [spells_iff]
  constructor
  · rintro ⟨front, rest, others, name, chain, split, rfl⟩
    obtain ⟨c', more, rfl⟩ := List.exists_cons_of_ne_nil name.filled
    obtain ⟨rfl, rfl⟩ := List.cons_eq_cons.mp split
    obtain ⟨first, plain⟩ := List.forall_mem_cons.mp name.plain
    exact ⟨first, more, rest, others, rfl, plain, chain, rfl⟩
  · rintro ⟨first, more, rest, others, rfl, plain, chain, rfl⟩
    have name : IsName (c :: more) :=
      ⟨List.cons_ne_nil _ _, List.forall_mem_cons.mpr ⟨first, plain⟩⟩
    exact ⟨c :: more, rest, others, name, chain, rfl, rfl⟩

theorem closes_cons (inside : c ≠ ']') :
    Closes read (c :: cs) segments ↔ Closes (read ++ [c]) cs segments := by
  simp only [Closes, List.append_assoc, List.singleton_append]
  constructor
  · rintro ⟨more, rest, segment, others, split, unclosed, bare⟩
    cases more with
    | nil => exact absurd (List.cons_eq_cons.mp split).1 inside
    | cons c' more =>
      obtain ⟨rfl, rfl⟩ := List.cons_eq_cons.mp split
      exact ⟨more, rest, segment, others, rfl, List.not_mem_of_not_mem_cons unclosed, bare⟩
  · rintro ⟨more, rest, segment, others, rfl, unclosed, bare⟩
    have unclosed : ']' ∉ c :: more := List.not_mem_cons_of_ne_of_not_mem inside.symm unclosed
    exact ⟨c :: more, rest, segment, others, rfl, unclosed, bare⟩

theorem closes_end : Closes read (']' :: cs) segments ↔
    unquote (trimChars read) ≠ [] ∧ ∃ others, Chain cs others ∧
      segments = String.ofList (unquote (trimChars read)) :: others := by
  constructor
  · rintro ⟨more, rest, segment, others, split, unclosed, bare, filled, chain, rfl⟩
    cases more with
    | nil =>
      obtain rfl : cs = rest := (List.cons_eq_cons.mp split).2
      rw [List.append_nil] at bare
      obtain rfl := bare_iff.mp bare
      exact ⟨filled, others, chain, rfl⟩
    | cons c' more =>
      obtain ⟨rfl, -⟩ := List.cons_eq_cons.mp split
      exact absurd List.mem_cons_self unclosed
  · rintro ⟨filled, others, chain, rfl⟩
    refine ⟨[], cs, _, others, rfl, List.not_mem_nil, ?_, filled, chain, rfl⟩
    rw [List.append_nil]
    exact bare_iff.mpr rfl

/-- A text that begins with a character may follow iff the rest may when the reader has gone on. -/
theorem continues_cons : place.Continues (c :: cs) segments ↔ (place.move c).Allows cs segments := by
  cases place with
  | start =>
    show Spells (c :: cs) segments ↔ _
    rw [spells_cons, Place.move]
    split
    · rename_i other
      rw [← not_or]
      simp [Move.Allows, other]
    · rename_i plain
      simp [Move.Allows, not_or.mp plain]
  | name read =>
    rw [Place.move]
    split
    · rename_i point
      rw [continues_name_end (.inl point), point]
      simp [Move.Allows, Place.Continues]
    split
    · rename_i bracket
      rw [continues_name_end (.inr bracket), bracket]
      simp [Move.Allows, Place.Continues, chain_bracket]
    · rename_i point bracket
      simp [Move.Allows, continues_name point bracket]
  | afterPoint =>
    show Chain ('.' :: c :: cs) segments ↔ _
    rw [chain_point, spells_cons, Place.move]
    split
    · rename_i point
      simp [Move.Allows, point]
    split
    · rename_i bracket
      simp [Move.Allows, bracket, Place.Continues]
    · rename_i point bracket
      simp [Move.Allows, point, bracket]
  | bracket read =>
    show Closes read.reverse (c :: cs) segments ↔ _
    rw [Place.move]
    split
    · rename_i bracket
      rw [bracket, closes_end, ← bracketSegment]
      split
      · rename_i hollow
        simp [Move.Allows, List.isEmpty_iff.mp hollow]
      · rename_i filled
        rw [List.isEmpty_iff] at filled
        simp [Move.Allows, Place.Continues, filled]
    · rename_i inside
      simp [Move.Allows, closes_cons inside, Place.Continues]
  | closed =>
    show Chain (c :: cs) segments ↔ _
    rw [Place.move]
    split
    · rename_i point
      simp [Move.Allows, point, Place.Continues]
    split
    · rename_i bracket
      simp [Move.Allows, bracket, Place.Continues, chain_bracket]
    · rename_i point bracket
      simp [Move.Allows, not_chain point bracket]

theorem not_spells_nil : ¬ Spells [] segments := by
  rw [spells_iff]
  rintro ⟨front, rest, others, name, -, split, -⟩
  exact name.filled (List.append_eq_nil_iff.mp split.symm).1

/-- The text may end at a place iff that finishes the segment at hand. -/
theorem continues_nil : place.Continues [] segments ↔ place.ending? = some segments := by
  cases place with
  | start =>
    show Spells [] segments ↔ _
    simp [not_spells_nil, Place.ending?]
  | name read =>
    rw [Place.ending?, Option.some.injEq]
    constructor
    · rintro ⟨more, rest, others, split, -, chain, rfl⟩
      obtain ⟨rfl, rfl⟩ := List.append_eq_nil_iff.mp split.symm
      rw [chain_nil.mp chain, List.append_nil]
    · rintro rfl
      exact ⟨[], [], [], rfl, nofun, .done, by rw [List.append_nil]⟩
  | afterPoint =>
    show Chain ['.'] segments ↔ _
    simp [chain_point, not_spells_nil, Place.ending?]
  | bracket read =>
    simp [Place.Continues, Closes, Place.ending?]
  | closed =>
    show Chain [] segments ↔ _
    rw [chain_nil, Place.ending?, Option.some.injEq, eq_comm]

end Continues

/-! ## What the reader takes -/

theorem scan_nil : scan path place done pos [] = .ok segments ↔
    ∃ others, place.ending? = some others ∧ segments = done.reverse ++ others := by
  cases place <;> simp [scan, Place.ending?, eq_comm]

/-- The reader comes to an end iff the grammar allows the text there. -/
theorem scan_eq_ok : scan path place done pos cs = .ok segments ↔
    ∃ others, place.Continues cs others ∧ segments = done.reverse ++ others := by
  induction cs generalizing place done pos with
  | nil => simp only [scan_nil, continues_nil]
  | cons c cs ih =>
    rw [scan_cons]
    simp only [continues_cons]
    cases place.move c with
    | on finished next =>
      simp only [ih, Move.Allows]
      constructor
      · rintro ⟨others, onward, rfl⟩
        refine ⟨finished.toList ++ others, ⟨others, onward, rfl⟩, ?_⟩
        cases finished <;> simp
      · rintro ⟨_, ⟨others, onward, rfl⟩, rfl⟩
        refine ⟨others, onward, ?_⟩
        cases finished <;> simp
    | misplaced | hollow => simp [Move.Allows]

/-! ## Where the reader misses a segment -/

/-- Some text that begins so may follow. -/
def Place.Viable (place : Place) (front : List Char) : Prop :=
  ∃ cs segments, front <+: cs ∧ place.Continues cs segments

theorem viable_cons {front : List Char} : place.Viable (c :: front) ↔
    ∃ finished next, place.move c = .on finished next ∧ next.Viable front := by
  constructor
  · rintro ⟨cs, segments, ⟨rest, rfl⟩, continues⟩
    have allows := continues_cons.mp continues
    cases moved : place.move c with
    | on finished next =>
      rw [moved] at allows
      obtain ⟨others, onward, -⟩ := allows
      exact ⟨finished, next, rfl, _, others, List.prefix_append front rest, onward⟩
    | misplaced | hollow =>
      rw [moved] at allows
      cases allows
  · rintro ⟨finished, next, moved, cs, others, more, onward⟩
    refine ⟨c :: cs, finished.toList ++ others, List.cons_prefix_cons.mpr ⟨rfl, more⟩, ?_⟩
    rw [continues_cons, moved]
    exact ⟨others, onward, rfl⟩

theorem isName_letter : IsName ['a'] := ⟨by simp, by simp⟩

/-- A bracket can be closed behind any text. -/
theorem closes_letter (read : List Char) : ∃ segments, Closes read ['x', ']'] segments := by
  obtain ⟨front, split⟩ : ∃ front, trimChars (read ++ ['x']) = front ++ ['x'] := by
    have last : isBlank 'x' = false := by decide
    have trimmed : ∃ front, trimStart (read ++ ['x']) = front ++ ['x'] := by
      induction read with
      | nil => exact ⟨[], rfl⟩
      | cons c read ih =>
        rw [trimStart, List.cons_append, List.dropWhile_cons]
        split
        · exact ih
        · exact ⟨c :: read, rfl⟩
    obtain ⟨front, split⟩ := trimmed
    refine ⟨front, ?_⟩
    rw [trimChars, split]
    exact trimEnd_eq_self.mpr (by simp [last])
  have bare : Bare (trimChars (read ++ ['x'])) (front ++ ['x']) := by
    rw [split]
    apply Bare.plain
    rintro q ds quote same
    rw [← List.cons_append] at same
    have last : ['x'] = [q] := (List.append_inj' same rfl).2
    obtain rfl : 'x' = q := List.singleton_inj.mp last
    revert quote
    decide
  exact ⟨_, ['x'], [], _, [], rfl, by decide, bare, by simp, .done, rfl⟩

/-- The reader never gets to a place from where no text would do. -/
theorem viable_nil (place : Place) : place.Viable [] := by
  have link : Chain ['.', 'a'] ["a"] := Chain.link (.name isName_letter) .done
  cases place with
  | start => exact ⟨['a'], ["a"], List.nil_prefix, Spells.name isName_letter .done⟩
  | name read => exact ⟨[], _, List.nil_prefix, continues_nil.mpr rfl⟩
  | afterPoint => exact ⟨['a'], ["a"], List.nil_prefix, link⟩
  | bracket read =>
    obtain ⟨segments, closes⟩ := closes_letter read.reverse
    exact ⟨_, segments, List.nil_prefix, closes⟩
  | closed => exact ⟨[], [], List.nil_prefix, .done⟩

/-- A segment is found missing right behind the longest part of the text that could go on. -/
theorem scan_position {path' : String} {position : Nat}
    (h : scan path place done pos cs = .error (.emptySegment path' position)) :
    path' = path ∧ ∃ front, front <+: cs ∧ position = pos + byteLength front ∧
      place.Viable front ∧ ∀ longer, longer <+: cs → place.Viable longer → longer <+: front := by
  induction cs generalizing place done pos with
  | nil =>
    have here : path' = path ∧ position = pos := by
      cases place <;> simp [scan] at h <;> simp [h]
    refine ⟨here.1, [], List.nil_prefix, here.2, viable_nil place, ?_⟩
    intro longer within _
    exact within
  | cons c cs ih =>
    rw [scan_cons] at h
    cases moved : place.move c with
    | on finished next =>
      rw [moved] at h
      obtain ⟨same, front, within, length, viable, longest⟩ := ih h
      refine ⟨same, c :: front, List.cons_prefix_cons.mpr ⟨rfl, within⟩, ?_, ?_, ?_⟩
      · rw [length, Nat.add_assoc]
        rfl
      · exact viable_cons.mpr ⟨finished, next, moved, viable⟩
      · intro longer within viable
        cases longer with
        | nil => exact List.nil_prefix
        | cons c' longer =>
          obtain ⟨rfl, inner⟩ := List.cons_prefix_cons.mp within
          obtain ⟨_, _, moved', viable⟩ := viable_cons.mp viable
          cases moved.symm.trans moved'
          exact List.cons_prefix_cons.mpr ⟨rfl, longest longer inner viable⟩
    | misplaced =>
      rw [moved] at h
      cases h
      refine ⟨rfl, [], List.nil_prefix, rfl, viable_nil place, ?_⟩
      intro longer within viable
      cases longer with
      | nil => exact List.nil_prefix
      | cons c' longer =>
        obtain ⟨rfl, -⟩ := List.cons_prefix_cons.mp within
        obtain ⟨_, _, moved', -⟩ := viable_cons.mp viable
        cases moved.symm.trans moved'
    | hollow =>
      rw [moved] at h
      cases h

/-! ## Whole texts -/

variable {text : String} {p : FieldPath}

theorem parse_eq_ok : parse text = .ok p ↔ Spells (trimChars text.toList) p.segments := by
  unfold parse
  dsimp only
  split
  · rename_i none
    rw [List.isEmpty_iff.mp none]
    simp [not_spells_nil]
  · constructor
    · intro read
      cases scanned : scan (String.ofList (trimChars text.toList)) .start [] 0
          (trimChars text.toList) with
      | error e =>
        rw [scanned] at read
        cases read
      | ok segments =>
        rw [scanned] at read
        cases read
        obtain ⟨_, spells, rfl⟩ := scan_eq_ok.mp scanned
        exact spells
    · intro spells
      have continues : Place.start.Continues (trimChars text.toList) p.segments := spells
      rw [scan_eq_ok.mpr ⟨p.segments, continues, rfl⟩]
      rfl

theorem scan_of_parse_error {path : String} {position : Nat}
    (h : parse text = .error (.emptySegment path position)) :
    scan (trim text) .start [] 0 (trimChars text.toList) = .error (.emptySegment path position) := by
  unfold parse at h
  dsimp only at h
  split at h
  · cases h
  · show scan (String.ofList (trimChars text.toList)) _ _ _ _ = _
    cases scanned : scan (String.ofList (trimChars text.toList)) .start [] 0
        (trimChars text.toList) with
    | error e =>
      rw [scanned] at h
      cases h
      rfl
    | ok segments =>
      rw [scanned] at h
      cases h

theorem ofList_ne_empty {cs : List Char} (filled : cs ≠ []) : String.ofList cs ≠ "" := by
  intro empty
  exact filled (String.ofList_inj.mp empty)

theorem Link.filled (h : Link cs s) : s ≠ "" := by
  cases h with
  | name name => exact ofList_ne_empty name.filled
  | bracket inside | pointed inside => exact ofList_ne_empty inside.filled

theorem Chain.filled (h : Chain cs segments) : "" ∉ segments := by
  induction h with
  | done => exact List.not_mem_nil
  | link first _ ih => exact List.not_mem_cons_of_ne_of_not_mem first.filled.symm ih

theorem Spells.filled (h : Spells cs segments) : segments ≠ [] ∧ "" ∉ segments := by
  obtain ⟨name, more⟩ := h
  refine ⟨List.cons_ne_nil _ _, ?_⟩
  exact List.not_mem_cons_of_ne_of_not_mem (ofList_ne_empty name.filled).symm more.filled

theorem Chain.concat {link : List Char} (h : Chain cs segments) (last : Link link s) :
    Chain (cs ++ link) (segments ++ [s]) := by
  induction h with
  | done => simpa using Chain.link last .done
  | link first _ ih =>
    rw [List.append_assoc]
    exact .link first ih

/-- A further name may follow any path. -/
theorem Spells.concat (h : Spells cs segments) :
    Spells (cs ++ ['.', 'a']) (segments ++ ["a"]) := by
  obtain ⟨name, more⟩ := h
  rw [List.append_assoc]
  exact .name name (more.concat (.name isName_letter))

/-- A part of a trimmed text that could go on does so in a text that is accepted as it stands. -/
theorem viable_accepted {front : List Char} (trimmed : Trimmed cs) (within : front <+: cs)
    (viable : Place.start.Viable front) :
    ∃ accepted q, front <+: accepted.toList ∧ trim accepted = accepted ∧ parse accepted = .ok q := by
  have accept {ds : List Char} {segments : List String} (more : front <+: ds)
      (trimmed : Trimmed ds) (spells : Spells ds segments) : ∃ accepted q,
        front <+: accepted.toList ∧ trim accepted = accepted ∧ parse accepted = .ok q := by
    refine ⟨String.ofList ds, ⟨segments⟩, ?_, ?_, ?_⟩
    · rwa [String.toList_ofList]
    · rw [trim, String.toList_ofList, trimmed.trimChars]
    · rw [parse_eq_ok, String.toList_ofList, trimmed.trimChars]
      exact spells
  cases front with
  | nil =>
    have spells : Spells ['a'] ["a"] := .name isName_letter .done
    have letter : isBlank 'a' = false := by decide
    have trimmed : Trimmed ['a'] := ⟨by simp [letter], by simp [letter]⟩
    exact accept List.nil_prefix trimmed spells
  | cons c front =>
    obtain ⟨ds, segments, ⟨rest, rfl⟩, spells⟩ := viable
    obtain ⟨tail, rfl⟩ := within
    -- the text begins as the trimmed one does, and a further name makes it end without a blank
    apply accept _ _ (Spells.concat spells)
    · rw [List.append_assoc]
      exact List.prefix_append _ _
    · constructor
      · exact trimmed.front
      · intro c' last
        rw [List.append_cons, List.getLast?_concat] at last
        cases last
        decide

/-- The reader takes a text iff, without the blanks around it, it is a path of the grammar, and gives
the segments that the text spells: there is one, and none is empty. Where a segment is missing, the
position counts the bytes of the longest part of the trimmed text that could go on to an accepted one. -/
theorem parse_grammar (text : String) :
    (∀ p, parse text = .ok p ↔ Spells (trimChars text.toList) p.segments) ∧
    (∀ p, parse text = .ok p → p.segments ≠ [] ∧ "" ∉ p.segments) ∧
    ∀ path position, parse text = .error (.emptySegment path position) →
      path = trim text ∧ ∃ front, front <+: trimChars text.toList ∧
        (String.ofList front).utf8ByteSize = position ∧
        (∃ accepted q, front <+: accepted.toList ∧ trim accepted = accepted ∧
          parse accepted = .ok q) ∧
        ∀ longer, longer <+: trimChars text.toList →
          (∃ accepted segments, longer <+: accepted ∧ Spells accepted segments) →
            longer <+: front := by
  refine ⟨fun p => parse_eq_ok, fun p read => (parse_eq_ok.mp read).filled, ?_⟩
  intro path position fault
  obtain ⟨same, front, within, length, viable, longest⟩ := scan_position (scan_of_parse_error fault)
  refine ⟨same, front, within, ?_, ?_, longest⟩
  · rw [← byteLength_eq, length, Nat.zero_add]
  · exact viable_accepted (trimmed_trimChars _) within viable

/-- A name may not follow a bracket, whatever blanks are in between. The bracket can go on, and with
the blank behind it no longer. -/
theorem parse_grammar_blank :
    Spells "a[ '0' ].b c".toList ["a", "0", "b c"] ∧
    parse "a[0] b" = .error (.emptySegment "a[0] b" 4) ∧
    (∃ accepted q, "a[0]".toList <+: accepted.toList ∧ trim accepted = accepted ∧
      parse accepted = .ok q) ∧
    ¬ ∃ accepted segments, "a[0] ".toList <+: accepted ∧ Spells accepted segments := by
  have read : parse "a[ '0' ].b c " = .ok ⟨["a", "0", "b c"]⟩ := by rfl
  have fault : parse "a[0] b" = .error (.emptySegment "a[0] b" 4) := by rfl
  obtain ⟨-, front, within, bytes, accepted, longest⟩ := (parse_grammar "a[0] b").2.2 _ _ fault
  have text : trimChars "a[0] b".toList = ['a', '[', '0', ']', ' ', 'b'] := by rfl
  have begins : front = "a[0]".toList := by
    have each : ∀ cs ∈ List.inits ['a', '[', '0', ']', ' ', 'b'],
        (String.ofList cs).utf8ByteSize = 4 → cs = "a[0]".toList := by decide
    exact each front ((List.mem_inits _ _).mpr (text ▸ within)) bytes
  refine ⟨((parse_grammar "a[ '0' ].b c ").1 _).mp read, fault, begins ▸ accepted, fun longer => ?_⟩
  have more := longest "a[0] ".toList (by decide) longer
  rw [begins] at more
  exact absurd more (by decide)

end FieldPath

end LiveForm
