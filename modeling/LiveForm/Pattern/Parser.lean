import LiveForm.Pattern.Class
import LiveForm.Pattern.Expr
import LiveForm.Text.Letter

/-!
Reading patterns. The dialect has literals, classes such as `[^a-z]`, `.` for anything but a line
feed, `\d` for the decimal digits of all scripts, `\s` for blanks, the anchors `^` and `$` of the
whole text, groups with names or without, alternatives, and the repetitions `?`, `*`, `+`, `{n}`,
`{n,}` and `{n,m}`. Anything else is refused.
-/

set_option autoImplicit false

namespace LiveForm.Pattern

open Text

/-- An expression as it is written, with the levels of its notation and the names of its groups. -/
structure Written where
  expr : Expr CharSet
  depth : Nat
  names : List String
  deriving Repr

namespace Written

/-- Something that is no level of its own. -/
def leaf (e : Expr CharSet) : Written := ⟨e, 0, []⟩

def ofEscape : Escape → Written
  | .char c => leaf (.one (.single c))
  | .set s => leaf (.one s)
  | .textStart => leaf .textStart
  | .textEnd => leaf .textEnd

/-- Parts next to one another. They are a level of their own if there are two or more. -/
def join (build : List (Expr CharSet) → Expr CharSet) : List Written → Written
  | [] => leaf .empty
  | [w] => w
  | ws => ⟨build (ws.map expr), (ws.map depth).foldl max 0 + 1, ws.flatMap names⟩

def seq (ws : List Written) : Written := join .seq ws

def alt (ws : List Written) : Written := join .alt ws

def many (w : Written) (least : Nat) (most : Option Nat) : Written :=
  ⟨.many w.expr least most, w.depth + 1, w.names⟩

end Written

/-! ### Repetitions -/

/-- Repetition counts are below this. -/
def countBound : Nat := 0x100000000

/-- A number with blanks around it, and the rest. -/
def count? (cs : List Char) : Option (Nat × List Char) :=
  let cs := cs.dropWhile isBlank
  let ds := cs.takeWhile isAsciiDigit
  (digits? countBound ds).map fun n => (n, (cs.drop ds.length).dropWhile isBlank)

/-- The bounds behind an opening brace, with the rest behind the closing one. -/
def bounds? (cs : List Char) : Option ((Nat × Option Nat) × List Char) :=
  match count? cs with
  | some (least, ',' :: rest) =>
    if rest.head? = some '\x7d' then some ((least, none), rest.tail)
    else
      match count? rest with
      | some (most, c :: after) =>
        if c = '\x7d' ∧ least ≤ most then some ((least, some most), after) else none
      | _ => none
  | some (least, c :: after) => if c = '\x7d' then some ((least, some least), after) else none
  | _ => none

/-- The bounds of a repetition that is written at the front; `some none` stands for no repetition,
`none` for a broken one. -/
def repetition? (cs : List Char) : Option (Option ((Nat × Option Nat) × List Char)) :=
  match cs with
  | [] => some none
  | c :: rest =>
    if c = '*' then some (some ((0, none), rest))
    else if c = '+' then some (some ((1, none), rest))
    else if c = '?' then some (some ((0, some 1), rest))
    else if c = '\x7b' then (bounds? rest).map some
    else some none

/-- Drops the mark that asks for the shortest match, which makes no difference here. -/
def dropLazyMark : List Char → List Char
  | '?' :: cs => cs
  | cs => cs

/-- All repetitions written behind an item, at most so many. -/
def repeats? : Nat → Written → List Char → Option (Written × List Char)
  | 0, _, _ => none
  | levels + 1, w, cs =>
    match repetition? cs with
    | some none => some (w, cs)
    | some (some ((least, most), rest)) =>
      repeats? levels (w.many least most) (dropLazyMark rest)
    | none => none

/-! ### Groups -/

inductive GroupKind where
  | plain
  | numbered
  | named (name : String)
  deriving DecidableEq, Repr

def isNameStart (c : Char) : Bool := c = '_' || isLetter c

def isNameChar (c : Char) : Bool :=
  c = '_' || c = '.' || c = '[' || c = ']' || isAlphanumeric c

/-- A name up to its closing angle. -/
def groupName? : List Char → Option (GroupKind × List Char)
  | [] => none
  | c :: cs =>
    let others := cs.takeWhile isNameChar
    match isNameStart c, cs.drop others.length with
    | true, '>' :: rest => some (.named (String.ofList (c :: others)), rest)
    | _, _ => none

/-- What kind of group is opened by a parenthesis, with what the group holds. -/
def groupStart? : List Char → Option (GroupKind × List Char)
  | '?' :: ':' :: cs => some (.plain, cs)
  | '?' :: '<' :: cs => groupName? cs
  | '?' :: 'P' :: '<' :: cs => groupName? cs
  | '?' :: _ => none
  | cs => some (.numbered, cs)

/-- A group around an expression, which is a level of its own. -/
def Written.grouped (w : Written) : GroupKind → Written
  | .plain => { w with depth := w.depth + 1 }
  | .numbered => ⟨.group w.expr, w.depth + 1, w.names⟩
  | .named name => ⟨.group w.expr, w.depth + 1, name :: w.names⟩

/-! ### Expressions -/

/-- How deep the levels of a pattern may nest. -/
def levelLimit : Nat := 250

def anyButLineFeed : CharSet := (CharSet.single '\n').complement

/-- One item without its repetitions. `inside?` reads what a group holds. -/
def item? (inside? : List Char → Option (Written × List Char)) :
    List Char → Option (Written × List Char)
  | [] => none
  | '(' :: cs =>
    match groupStart? cs with
    | none => none
    | some (kind, cs) =>
      match inside? cs with
      | some (w, ')' :: rest) => some (w.grouped kind, rest)
      | _ => none
  | '[' :: cs => (class? levelLimit cs).map fun (w, rest) => (⟨.one w.set, w.depth, []⟩, rest)
  | '.' :: cs => some (.leaf (.one anyButLineFeed), cs)
  | '^' :: cs => some (.leaf .textStart, cs)
  | '$' :: cs => some (.leaf .textEnd, cs)
  | '\\' :: cs => (escape? cs).map fun (e, rest) => (.ofEscape e, rest)
  | c :: cs =>
    if c = '*' ∨ c = '+' ∨ c = '?' ∨ c = '\x7b' then none
    else some (.leaf (.one (.single c)), cs)

/-- Alternatives up to the end or a closing parenthesis. The alternatives before this one and its
items so far come with the last one first. -/
def alternativesFrom? (inside? : List Char → Option (Written × List Char)) :
    Nat → List Written → List Written → List Char → Option (Written × List Char)
  | 0, _, _, _ => none
  | fuel + 1, branches, items, cs =>
    let branches' := Written.seq items.reverse :: branches
    match cs with
    | [] => some (.alt branches'.reverse, [])
    | ')' :: _ => some (.alt branches'.reverse, cs)
    | '|' :: rest => alternativesFrom? inside? fuel branches' [] rest
    | _ =>
      match item? inside? cs with
      | none => none
      | some (w, rest) =>
        match repeats? (levelLimit + 1) w rest with
        | some (w, rest) => alternativesFrom? inside? fuel branches (w :: items) rest
        | none => none

/-- Alternatives in which at most so many groups stand in one another. -/
def alternatives? : Nat → List Char → Option (Written × List Char)
  | 0, _ => none
  | levels + 1, cs => alternativesFrom? (alternatives? levels) (cs.length + 1) [] [] cs

/-- Reads an expression that is the whole text. Its groups have different names. -/
def Expr.ofText? (source : String) : Option (Expr CharSet) :=
  match alternatives? (levelLimit + 1) source.toList with
  | some (w, []) => if w.depth ≤ levelLimit ∧ w.names.Nodup then some w.expr else none
  | _ => none

end LiveForm.Pattern
