import LiveForm.Pattern.Matching
import LiveForm.Pattern.Parser
import LiveForm.Pattern.Room

/-!
Patterns of text. A pattern holds of a text if some stretch of the text matches it, so anchors are
needed to speak of the whole.
-/

set_option autoImplicit false

namespace LiveForm

/-- A pattern with the text it was read from. -/
structure Pattern where
  source : String
  expr : Pattern.Expr CharSet
  deriving Repr

/-- Reads a pattern, `none` if the text is not one or if the pattern takes too much room. -/
def Pattern.parse? (source : String) : Option Pattern :=
  (Expr.ofText? source).bind fun e => if e.fits then some ⟨source, e⟩ else none

def Pattern.matches (p : Pattern) (s : String) : Bool := p.expr.matchesIn s.toList

end LiveForm
