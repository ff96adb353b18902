import LiveForm.Json.Token

/-!
Skimming over values that nobody looks at. A skimmed value has to be well written, but what its
numbers and strings stand for does not matter: a number may be too large, an escape may be half of
a character, and values may nest to any depth.
-/

set_option autoImplicit false

namespace LiveForm.Json

open Text

/-- At least one digit. -/
def skimDigits (c : Cursor) : Reading Unit :=
  let ds := c.rest.takeWhile isAsciiDigit
  if ds.isEmpty then
    if c.rest.isEmpty then c.fail .endInValue else c.step.fail .invalidNumber
  else .ok ((), c.skip ds)

/-- An exponent, if there is one. -/
def skimExponent (c : Cursor) : Reading Unit :=
  if atExponent c then
    let c := c.step
    match c.rest with
    | '+' :: _ => skimDigits c.step
    | '-' :: _ => skimDigits c.step
    | _ => skimDigits c
  else .ok ((), c)

/-- A number behind its sign. -/
def skimNumber (c : Cursor) : Reading Unit :=
  let leadingZero := c.rest.head? = some '0'
  match skimDigits c with
  | .error e => .error e
  | .ok ((), after) =>
    if leadingZero ∧ after.offset ≠ c.offset + 1 then c.step.failAhead .invalidNumber
    else
      match after.rest with
      | '.' :: _ =>
        match skimDigits after.step with
        | .error e => .error e
        | .ok ((), c) => skimExponent c
      | _ => skimExponent after

/-- The characters up to the closing quote. `fuel` bounds their number. -/
def skimString : Nat → Cursor → Reading Unit
  | 0, c => c.fail .endInString
  | fuel + 1, c =>
    match c.rest with
    | [] => c.fail .endInString
    | '"' :: _ => .ok ((), c.step)
    | '\\' :: _ =>
      match readUnit c.step with
      | .error e => .error e
      | .ok (_, c) => skimString fuel c
    | ch :: _ =>
      if ch.toNat < 32 then c.step.fail .controlCharacter else skimString fuel (c.skip [ch])

inductive Enclosure where
  | list
  | object
  deriving DecidableEq, Repr

/-- What a skimmed value opens, if it is no scalar; a scalar is passed over. -/
def skimStart (c : Cursor) : Reading (Option Enclosure) :=
  let scalar {α : Type} (r : Reading α) : Reading (Option Enclosure) := r.map fun (_, c) => (none, c)
  let c := c.skipSpace
  match c.rest with
  | [] => c.failAhead .endInValue
  | d :: _ =>
    if d = 'n' then scalar (readWord .null ['u', 'l', 'l'] c.step)
    else if d = 't' then scalar (readWord .null ['r', 'u', 'e'] c.step)
    else if d = 'f' then scalar (readWord .null ['a', 'l', 's', 'e'] c.step)
    else if d = '-' then scalar (skimNumber c.step)
    else if isAsciiDigit d then scalar (skimNumber c)
    else if d = '"' then scalar (skimString (c.total + 1) c.step)
    else if d = '[' then .ok (some .list, c.step)
    else if d = '\x7b' then .ok (some .object, c.step)
    else c.failAhead .valueExpected

/-- Goes to the next entry of an enclosure, past its key; `false` at the end. -/
def skimToEntry (first : Bool) : Enclosure → Cursor → Reading Bool
  | .list, c => nextItem first c
  | .object, c =>
    match nextKey first c with
    | .ok (true, c) =>
      match skimString (c.total + 1) c.step with
      | .error e => .error e
      | .ok ((), c) => (readColon c).map fun (_, c) => (true, c)
    | other => other

/-- Passes over what is left of the enclosures, the innermost first. `first` holds before the first
entry of the innermost. -/
def skimEntries : Nat → Bool → List Enclosure → Cursor → Reading Unit
  | _, _, [], c => .ok ((), c)
  | 0, _, _, c => c.fail .endInValue
  | fuel + 1, first, inner :: outer, c =>
    match skimToEntry first inner c with
    | .error e => .error e
    | .ok (false, c) => skimEntries fuel false outer c
    | .ok (true, c) =>
      match skimStart c with
      | .error e => .error e
      | .ok (none, c) => skimEntries fuel false (inner :: outer) c
      | .ok (some opened, c) => skimEntries fuel true (opened :: inner :: outer) c

/-- Passes over one value. -/
def skimValue (c : Cursor) : Reading Unit :=
  match skimStart c with
  | .error e => .error e
  | .ok (none, c) => .ok ((), c)
  | .ok (some opened, c) => skimEntries (c.total + 1) true [opened] c

end LiveForm.Json
