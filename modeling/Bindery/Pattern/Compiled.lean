import Bindery.Pattern.Parser
import Bindery.Pattern.Search

/-!
# Compiled patterns

A pattern that has been read once and is matched many times. Two compiled patterns are equal when
their sources are.
-/

namespace Bindery

/-- A pattern with its source. -/
structure Pattern where
  source : String
  expr : Pattern.Expr
  deriving Repr

namespace Pattern

instance : BEq Pattern := ⟨fun a b => a.source == b.source⟩

/-- Reads a pattern; `none` if it is refused. -/
def ofSource? (source : String) : Option Pattern := (parse? source).map fun expr => ⟨source, expr⟩

/-- A pattern of the program itself. A source that is refused matches nothing. -/
def ofLiteral (source : String) : Pattern :=
  (ofSource? source).getD ⟨source, .oneOf []⟩

/-- Whether the pattern matches somewhere in the text. -/
def isMatch (p : Pattern) (text : String) : Bool := p.expr.isMatch text.toList

end Pattern

end Bindery
