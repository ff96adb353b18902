import LiveForm.Pattern.Reduced
import LiveForm.Pattern.Utf8

/-!
The room that a pattern takes as an automaton over bytes. There are two of them, one that reads the
text forwards and one that reads it backwards; a pattern fits if neither needs more than ten
mebibytes. A bounded repetition costs as much as all its rounds written out.

A state takes 32 bytes, a state with several byte ranges eight more for each, and a branching four
more for each way that leads on from it.
-/

set_option autoImplicit false

namespace LiveForm.Pattern

inductive Direction where
  | forwards
  | backwards
  deriving DecidableEq, Repr

def stateRoom : Nat := 32

def wayRoom : Nat := 4

/-- A state with so many byte ranges. -/
def rangesRoom (n : Nat) : Nat := stateRoom + 8 * n

/-! ### Sets of characters -/

/-- Sequences by their first ranges, each with what follows it. -/
def byFirst : List (List ByteRange) → List (ByteRange × List (List ByteRange))
  | [] => []
  | [] :: seqs => byFirst seqs
  | (b :: tail) :: seqs =>
    match byFirst seqs with
    | (b', tails) :: groups =>
      if b = b' then (b, tail :: tails) :: groups else (b, [tail]) :: (b', tails) :: groups
    | [] => [(b, [tail])]

/-- The states that read sequences forwards. What has the same sequences ahead is one state. -/
def forwardStates : Nat → List (List ByteRange) → List (List (List ByteRange)) →
    List (List (List ByteRange))
  | 0, _, seen => seen
  | fuel + 1, seqs, seen =>
    if seen.contains seqs then seen
    else
      seqs :: (byFirst seqs).foldl (fun seen group =>
        if group.2.all List.isEmpty then seen else forwardStates fuel group.2 seen) seen

/-- The states that read sequences backwards: one for each way that sequences begin. -/
def backwardStates : Nat → List (List ByteRange) → Nat
  | 0, _ => 0
  | fuel + 1, seqs => ((byFirst seqs).map fun group => 1 + backwardStates fuel group.2).foldr (· + ·) 0

/-- The most bytes that a character has. -/
def charBytes : Nat := 4

def setRoom (d : Direction) (s : CharSet) : Nat :=
  if s.isAscii then stateRoom + rangesRoom s.ranges.length
  else
    let seqs := byteSequences s
    match d with
    | .forwards =>
      let states := forwardStates charBytes seqs []
      stateRoom + (states.map fun seqs => rangesRoom (byFirst seqs).length).foldr (· + ·) 0
    | .backwards =>
      (2 + backwardStates charBytes seqs) * stateRoom + seqs.length * wayRoom

/-! ### Words to choose from -/

/-- What is left of the words that begin with a byte. -/
def tailsAfter (b : UInt8) (words : List (List UInt8)) : List (List UInt8) :=
  words.filterMap fun word =>
    match word with
    | c :: rest => if c = b then some rest else none
    | [] => none

/-- The words between those that are empty. -/
def untilEmpty : List (List UInt8) → List (List (List UInt8))
  | [] => [[]]
  | word :: words =>
    match untilEmpty words with
    | run :: runs => if word.isEmpty then [] :: run :: runs else (word :: run) :: runs
    | [] => [[word]]

/-- The tree of words that reads them byte by byte. Words keep their order: where one ends, the
later ones are read by a branch of their own. -/
def wordsRoom : Nat → List (List UInt8) → Nat
  | 0, _ => 0
  | fuel + 1, words =>
    if words.all List.isEmpty then 0
    else
      let endings := (words.filter List.isEmpty).length
      let repeatedEndings := (words.takeWhile List.isEmpty).length - 1
      let runs := (untilEmpty words).filter fun run => !run.isEmpty
      let runRoom (run : List (List UInt8)) : Nat :=
        let bytes := (run.filterMap List.head?).eraseDups
        (if bytes.length = 1 then stateRoom else rangesRoom bytes.length) +
          (bytes.map fun b => wordsRoom fuel (tailsAfter b run)).foldr (· + ·) 0
      stateRoom + wayRoom * (runs.length + (endings - repeatedEndings)) + (runs.map runRoom).foldr (· + ·) 0

def runBytes (d : Direction) (cs : List Char) : List UInt8 :=
  let bytes := cs.flatMap String.utf8EncodeChar
  match d with
  | .forwards => bytes
  | .backwards => bytes.reverse

/-! ### Expressions -/

/-- A part of an automaton. A loose end is a branching, which takes room for the way to what
follows. -/
structure Fragment where
  room : Nat
  looseEnd : Bool
  deriving DecidableEq, Repr

namespace Fragment

def nothing : Fragment := ⟨stateRoom, false⟩

/-- The room for the way to what follows. -/
def toNext (f : Fragment) : Nat := if f.looseEnd then wayRoom else 0

def append (f g : Fragment) : Fragment := ⟨f.room + f.toNext + g.room, g.looseEnd⟩

def chain : List Fragment → Fragment
  | [] => nothing
  | f :: fs => fs.foldl append f

/-- So many copies in a row. -/
def times (f : Fragment) : Nat → Fragment
  | 0 => nothing
  | n + 1 => ⟨(n + 1) * f.room + n * f.toNext, f.looseEnd⟩

/-- One branch of several. -/
def branchRoom (f : Fragment) : Nat := f.room + f.toNext + wayRoom

def either (fs : List Fragment) : Fragment := ⟨2 * stateRoom + (fs.map branchRoom).foldr (· + ·) 0, false⟩

def maybe (f : Fragment) : Fragment := ⟨2 * stateRoom + wayRoom + f.branchRoom, false⟩

/-- One round or more. -/
def rounds (f : Fragment) : Fragment := ⟨stateRoom + f.branchRoom, true⟩

/-- Any number of rounds of something that may match the empty text. -/
def emptyRounds (f : Fragment) : Fragment := ⟨3 * stateRoom + 3 * wayRoom + f.branchRoom, false⟩

def atLeast (f : Fragment) (consumes : Bool) : Nat → Fragment
  | 0 => if consumes then f.rounds else f.emptyRounds
  | 1 => f.rounds
  | n + 2 => (f.times (n + 1)).append f.rounds

def between (f : Fragment) (least most : Nat) : Fragment :=
  if least = most then f.times least
  else if least = 0 ∧ most = 1 then f.maybe
  else
    let start := f.times least
    ⟨start.room + start.toNext + stateRoom +
      (most - least) * (stateRoom + wayRoom + f.branchRoom), false⟩

end Fragment

mutual

def fragment (d : Direction) : Reduced → Fragment
  | .empty => .nothing
  | .textStart => .nothing
  | .textEnd => .nothing
  | .one (.run cs) => ⟨(runBytes d cs).length * stateRoom, false⟩
  | .one (.set s) => ⟨setRoom d s, false⟩
  | .group e =>
    match d with
    | .forwards => ⟨2 * stateRoom + (fragment d e).room + (fragment d e).toNext, false⟩
    | .backwards => fragment d e
  | .seq items =>
    match d with
    | .forwards => .chain (fragments d items)
    | .backwards => .chain (fragments d items).reverse
  | .alt branches =>
    match branches.mapM Reduced.run? with
    | some runs =>
      let words := runs.map (runBytes d)
      ⟨stateRoom + wordsRoom ((words.map List.length).foldl max 0 + 1) words, false⟩
    | none => .either (fragments d branches)
  | .many e least none => (fragment d e).atLeast (Reduced.consumes e) least
  | .many e least (some most) => (fragment d e).between least most

def fragments (d : Direction) : List Reduced → List Fragment
  | [] => []
  | e :: es => fragment d e :: fragments d es

end

/-- What every automaton has: the loop that passes over the text before a match, and its end. -/
def frameRoom : Direction → Nat
  | .forwards => 4 * stateRoom + 2 * wayRoom + 72
  | .backwards => 2 * stateRoom + 2 * wayRoom + 72

def room (d : Direction) (e : Reduced) : Nat :=
  frameRoom d + (fragment d e).room + (fragment d e).toNext

def roomLimit : Nat := 10 * 1024 * 1024

def Expr.fits (e : Expr CharSet) : Bool :=
  let e := Reduced.ofExpr e
  room .forwards e ≤ roomLimit && room .backwards e ≤ roomLimit

end LiveForm.Pattern
