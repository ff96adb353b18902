import LiveForm.Pattern.CharSet
import LiveForm.Pattern.Expr

/-!
Matching by sets of places. A place stands before a character of a text or behind the last one; an
expression takes the places where matches begin to the places where they may end. The places are
taken all at once, so a text is not searched again for each of them.
-/

set_option autoImplicit false

namespace LiveForm.Pattern

/-- A set of places of a text: bit `i` for the place before the `i`-th character. -/
abbrev Places := Nat

namespace Places

/-- The bits of a word that are filled before the word is put in its place. -/
def wordBits : Nat := 48

/-- The places before characters with a property, behind `filled` places that are in `word`. -/
def gather (p : Char → Bool) : Nat → Nat → List Char → Places
  | word, _, [] => word
  | word, filled, c :: cs =>
    let word := if p c then word + 1 <<< filled else word
    if filled + 1 < wordBits then gather p word (filled + 1) cs
    else word + gather p 0 0 cs <<< (filled + 1)

/-- The places before characters with a property. -/
def before (p : Char → Bool) (text : List Char) : Places := gather p 0 0 text

def only (i : Nat) : Places := 1 <<< i

/-- The places up to `last`. -/
def upTo (last : Nat) : Places := only (last + 1) - 1

/-- The places of `s` that are not in `t`. -/
def without (s t : Places) : Places := s ^^^ (s &&& t)

/-- `step` taken `n` times. Once the places stay the same, further steps change nothing. -/
def repeated (step : Places → Places) : Nat → Places → Places
  | 0, places => places
  | n + 1, places =>
    let next := step places
    if next = places then places else repeated step n next

/-- The places reached by up to `n` further steps; those of `fresh` were reached by the last one. -/
def spread (step : Places → Places) : Nat → Places → Places → Places
  | 0, reached, _ => reached
  | n + 1, reached, fresh =>
    if fresh = 0 then reached
    else
      let next := (step fresh).without reached
      spread step n (reached ||| next) next

end Places

mutual

/-- The places where matches may end that begin at some of the given places. The text ends at
`last`. A repetition needs no more rounds than the text has places: in more of them one matches
nothing, and can be left out or taken once more. -/
def ends (last : Nat) : Expr Places → Places → Places
  | .empty, places => places
  | .one here, places => (places &&& here) <<< 1
  | .textStart, places => places &&& Places.only 0
  | .textEnd, places => places &&& Places.only last
  | .group e, places => ends last e places
  | .seq items, places => endsInTurn last items places
  | .alt branches, places => endsOfAny last branches places 0
  | .many e least most, places =>
    let start := Places.repeated (ends last e) (min least (last + 1)) places
    let rounds := most.elim (last + 1) fun most => min (most - least) (last + 1)
    Places.spread (ends last e) rounds start start

def endsInTurn (last : Nat) : List (Expr Places) → Places → Places
  | [], places => places
  | e :: es, places => endsInTurn last es (ends last e places)

/-- What the branches reach together, with what others before them have reached. -/
def endsOfAny (last : Nat) : List (Expr Places) → Places → Places → Places
  | [], _, reached => reached
  | e :: es, places, reached => endsOfAny last es places (reached ||| ends last e places)

end

/-- Holds if some stretch of the text matches the expression. -/
def Expr.matchesIn (e : Expr CharSet) (text : List Char) : Bool :=
  let here := e.map fun s => Places.before s.contains text
  ends text.length here (Places.upTo text.length) ≠ 0

end LiveForm.Pattern
