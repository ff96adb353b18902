import LiveForm.Pattern.CharSet
import LiveForm.Pattern.Expr

/-!
Expressions in reduced form: characters next to one another make up runs, alternatives of single
characters or of sets are one set, and what matches nothing but the empty text is not repeated.
-/

set_option autoImplicit false

namespace LiveForm.Pattern

/-- A run of characters, or one character of a set. -/
inductive Piece where
  | run (cs : List Char)
  | set (s : CharSet)
  deriving DecidableEq, Repr

abbrev Reduced := Expr Piece

namespace Reduced

def ofSet (s : CharSet) : Reduced :=
  match s.only? with
  | some c => .one (.run [c])
  | none => .one (.set s)

/-- The parts of a sequence. -/
def parts : Reduced → List Reduced
  | .seq items => items
  | e => [e]

/-- The branches of an alternative. -/
def branches : Reduced → List Reduced
  | .alt es => es
  | e => [e]

def run? : Reduced → Option (List Char)
  | .one (.run cs) => some cs
  | _ => none

def char? : Reduced → Option Char
  | .one (.run [c]) => some c
  | _ => none

def set? : Reduced → Option CharSet
  | .one (.set s) => some s
  | _ => none

/-- Puts a part in front of others. -/
def consPart (e : Reduced) (rest : List Reduced) : List Reduced :=
  match e, rest with
  | .empty, _ => rest
  | .one (.run cs), .one (.run ds) :: others => .one (.run (cs ++ ds)) :: others
  | _, _ => e :: rest

def inTurn (es : List Reduced) : Reduced :=
  match (es.flatMap parts).foldr consPart [] with
  | [] => .empty
  | [e] => e
  | es => .seq es

def anyOf (es : List Reduced) : Reduced :=
  match es.flatMap branches with
  | [] => ofSet .empty
  | [e] => e
  | es =>
    match es.mapM char?, es.mapM set? with
    | some cs, _ => ofSet (CharSet.ofRanges (cs.map fun c => (c.toNat, c.toNat)))
    | none, some sets => ofSet (CharSet.ofRanges (sets.flatMap CharSet.ranges))
    | none, none => .alt es

mutual

/-- Holds of expressions that match nothing but the empty text. -/
def isHollow : Reduced → Bool
  | .one _ => false
  | .group e => isHollow e
  | .seq items => areHollow items
  | .alt branches => areHollow branches
  | .many e _ _ => isHollow e
  | _ => true

def areHollow : List Reduced → Bool
  | [] => true
  | e :: es => isHollow e && areHollow es

end

def repeated (e : Reduced) (least : Nat) (most : Option Nat) : Reduced :=
  let (least, most) :=
    if e.isHollow then (min least 1, some (min (most.getD 1) 1)) else (least, most)
  if most = some 0 then .empty
  else if least = 1 ∧ most = some 1 then e
  else .many e least most

mutual

def ofExpr : Expr CharSet → Reduced
  | .empty => .empty
  | .one s => ofSet s
  | .textStart => .textStart
  | .textEnd => .textEnd
  | .group e => .group (ofExpr e)
  | .seq items => inTurn (ofExprs items)
  | .alt branches => anyOf (ofExprs branches)
  | .many e least most => repeated (ofExpr e) least most

def ofExprs : List (Expr CharSet) → List Reduced
  | [] => []
  | e :: es => ofExpr e :: ofExprs es

end

mutual

/-- Holds of expressions whose every match has a character. -/
def consumes : Reduced → Bool
  | .one (.set s) => !s.isEmpty
  | .one (.run _) => true
  | .group e => consumes e
  | .seq items => someConsumes items
  | .alt branches => allConsume branches
  | .many e least _ => 1 ≤ least && consumes e
  | _ => false

def someConsumes : List Reduced → Bool
  | [] => false
  | e :: es => consumes e || someConsumes es

def allConsume : List Reduced → Bool
  | [] => true
  | e :: es => consumes e && allConsume es

end

end Reduced

end LiveForm.Pattern
