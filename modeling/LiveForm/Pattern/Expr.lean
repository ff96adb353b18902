/-!
Expressions of patterns over the sets of characters they are made of, or over anything else that
stands in the place of such a set.
-/

set_option autoImplicit false

namespace LiveForm.Pattern

/-- A `group` is one that remembers what it matched. A repetition has a least count, and a largest
one if it is bounded. -/
inductive Expr (σ : Type) where
  | empty
  | one (s : σ)
  | textStart
  | textEnd
  | group (e : Expr σ)
  | seq (items : List (Expr σ))
  | alt (branches : List (Expr σ))
  | many (e : Expr σ) (least : Nat) (most : Option Nat)
  deriving Repr

namespace Expr

variable {σ τ : Type}

mutual

def map (f : σ → τ) : Expr σ → Expr τ
  | .empty => .empty
  | .one s => .one (f s)
  | .textStart => .textStart
  | .textEnd => .textEnd
  | .group e => .group (map f e)
  | .seq items => .seq (mapAll f items)
  | .alt branches => .alt (mapAll f branches)
  | .many e least most => .many (map f e) least most

def mapAll (f : σ → τ) : List (Expr σ) → List (Expr τ)
  | [] => []
  | e :: es => map f e :: mapAll f es

end

end Expr

end LiveForm.Pattern
