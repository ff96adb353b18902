import LiveForm.Pattern.Escape

/-!
Classes of characters in brackets, such as `[^a-z\d_]`. A class may hold other classes, among them
the named ones such as `[:alpha:]`, and be put together by the operators `&&` for what two sides
share, `--` for what only the left one has, and `~~` for what one of them has; they all bind alike,
from the left. Right behind the opening bracket hyphens stand for themselves, and so does a closing
bracket.
-/

set_option autoImplicit false

namespace LiveForm.Pattern

/-- A set of characters as it is written, with the levels of its notation. -/
structure WrittenSet where
  set : CharSet
  depth : Nat
  deriving DecidableEq, Repr

inductive SetOperator where
  | inter
  | diff
  | symmDiff
  deriving DecidableEq, Repr

def SetOperator.apply : SetOperator → CharSet → CharSet → CharSet
  | .inter => CharSet.inter
  | .diff => CharSet.diff
  | .symmDiff => CharSet.symmDiff

/-- Items side by side, the last one first. -/
structure SetItems where
  ranges : List (Nat × Nat)
  count : Nat
  depth : Nat

namespace SetItems

def empty : SetItems := ⟨[], 0, 0⟩

def add (items : SetItems) (ranges : List (Nat × Nat)) (depth : Nat) : SetItems :=
  ⟨ranges ++ items.ranges, items.count + 1, max items.depth depth⟩

def addRange (items : SetItems) (a b : Char) : SetItems := items.add [(a.toNat, b.toNat)] 0

/-- Two items or more are a level of their own. -/
def close (items : SetItems) : WrittenSet :=
  ⟨CharSet.ofRanges items.ranges, if items.count < 2 then items.depth else items.depth + 1⟩

end SetItems

/-- The left side of an operator whose right side is still being read. -/
abbrev LeftSide := Option (WrittenSet × SetOperator)

/-- The whole left side, now that the right one is complete. -/
def LeftSide.close (left : LeftSide) (items : SetItems) : WrittenSet :=
  let right := items.close
  match left with
  | some (w, operator) => ⟨operator.apply w.set right.set, max w.depth right.depth + 1⟩
  | none => right

/-- The operator at the front, with the rest. -/
def setOperator? : List Char → Option (SetOperator × List Char)
  | '&' :: '&' :: cs => some (.inter, cs)
  | '-' :: '-' :: cs => some (.diff, cs)
  | '~' :: '~' :: cs => some (.symmDiff, cs)
  | _ => none

/-- The classes with names, which hold ASCII characters only. -/
def namedSets : List (String × List (Nat × Nat)) :=
  [("alnum", [(0x30, 0x39), (0x41, 0x5A), (0x61, 0x7A)]),
   ("alpha", [(0x41, 0x5A), (0x61, 0x7A)]),
   ("ascii", [(0x00, 0x7F)]),
   ("blank", [(0x09, 0x09), (0x20, 0x20)]),
   ("cntrl", [(0x00, 0x1F), (0x7F, 0x7F)]),
   ("digit", [(0x30, 0x39)]),
   ("graph", [(0x21, 0x7E)]),
   ("lower", [(0x61, 0x7A)]),
   ("print", [(0x20, 0x7E)]),
   ("punct", [(0x21, 0x2F), (0x3A, 0x40), (0x5B, 0x60), (0x7B, 0x7E)]),
   ("space", [(0x09, 0x0D), (0x20, 0x20)]),
   ("upper", [(0x41, 0x5A)]),
   ("word", [(0x30, 0x39), (0x41, 0x5A), (0x5F, 0x5F), (0x61, 0x7A)]),
   ("xdigit", [(0x30, 0x39), (0x41, 0x46), (0x61, 0x66)])]

/-- A class by its name behind the inner bracket: `:alpha:]`, or `:^alpha:]` for all else. -/
def namedSet? : List Char → Option (CharSet × List Char)
  | ':' :: cs =>
    let negated := cs.head? = some '^'
    let cs := if negated then cs.tail else cs
    let name := cs.takeWhile (· ≠ ':')
    match cs.drop name.length with
    | ':' :: ']' :: rest =>
      (namedSets.find? fun e => e.1 = String.ofList name).map fun e =>
        (if negated then CharSet.complement ⟨e.2⟩ else ⟨e.2⟩, rest)
    | _ => none
  | _ => none

/-- One character or set at the front. -/
def setPrimary? : List Char → Option (Escape × List Char)
  | [] => none
  | '\\' :: cs => escape? cs
  | c :: cs => some (.char c, cs)

/-- Adds what is no range. -/
def SetItems.addPrimary? (items : SetItems) : Escape → Option SetItems
  | .char c => some (items.addRange c c)
  | .set s => some (items.add s.ranges 0)
  | _ => none

/-- Holds where a hyphen makes a range with what stands before it. -/
def atRangeHyphen : List Char → Bool
  | '-' :: ']' :: _ => false
  | '-' :: '-' :: _ => false
  | '-' :: _ => true
  | _ => false

/-- One item at the front, alone or as the start of a range. -/
def setItem? (items : SetItems) (cs : List Char) : Option (SetItems × List Char) :=
  match setPrimary? cs with
  | none => none
  | some (a, rest) =>
    if atRangeHyphen rest then
      match a, setPrimary? rest.tail with
      | .char a, some (.char b, rest) =>
        if a.toNat ≤ b.toNat then some (items.addRange a b, rest) else none
      | _, _ => none
    else (items.addPrimary? a).map fun items => (items, rest)

/-- The items up to the closing bracket. `inner?` reads a class behind its opening bracket. -/
def setItems? (inner? : List Char → Option (WrittenSet × List Char)) :
    Nat → LeftSide → SetItems → List Char → Option (WrittenSet × List Char)
  | 0, _, _, _ => none
  | fuel + 1, left, items, cs =>
    match cs with
    | [] => none
    | ']' :: rest => some (left.close items, rest)
    | '[' :: rest =>
      match namedSet? rest with
      | some (s, rest) => setItems? inner? fuel left (items.add s.ranges 0) rest
      | none =>
        match inner? rest with
        | some (w, rest) => setItems? inner? fuel left (items.add w.set.ranges w.depth) rest
        | none => none
    | _ =>
      match setOperator? cs with
      | some (operator, rest) =>
        setItems? inner? fuel (some (left.close items, operator)) .empty rest
      | none =>
        match setItem? items cs with
        | some (items, rest) => setItems? inner? fuel left items rest
        | none => none

/-- The characters right behind the opening bracket that stand for themselves there. -/
def leadingItems (cs : List Char) : SetItems × List Char :=
  let hyphens := cs.takeWhile (· = '-')
  let items := hyphens.foldl (fun items c => items.addRange c c) SetItems.empty
  match hyphens, cs.drop hyphens.length with
  | [], ']' :: rest => (items.addRange ']' ']', rest)
  | _, rest => (items, rest)

/-- A class behind its opening bracket, which is a level of its own. At most so many classes stand
in one another. -/
def class? : Nat → List Char → Option (WrittenSet × List Char)
  | 0, _ => none
  | levels + 1, cs =>
    let negated := cs.head? = some '^'
    let (items, rest) := leadingItems (if negated then cs.tail else cs)
    (setItems? (class? levels) (rest.length + 1) none items rest).map fun (w, rest) =>
      (⟨if negated then w.set.complement else w.set, w.depth + 1⟩, rest)

end LiveForm.Pattern
