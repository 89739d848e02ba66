import LuneSyntax.Token.Kind

/-!
# Precedence

The levels of expressions, from the operators that bind least to literals. Each binary operator
belongs to one of the first four levels.
-/

set_option autoImplicit false

namespace LuneSyntax

/-- A level of expressions. Tighter binding levels come later. -/
inductive Precedence where
  | equality
  | comparison
  | term
  | factor
  | unary
  | literal
  deriving DecidableEq, Repr

/-- The position of a level in the order of binding, counted from one. -/
def Precedence.rank : Precedence → Nat
  | .equality => 1
  | .comparison => 2
  | .term => 3
  | .factor => 4
  | .unary => 5
  | .literal => 6

namespace Token.Kind

/-- The level at which a kind joins two operands. Most kinds are no binary operators. -/
def binaryLevel? : Kind → Option Precedence
  | .bangEqual | .equalEqual => some .equality
  | .greater | .greaterEqual | .less | .lessEqual => some .comparison
  | .plus | .minus => some .term
  | .star | .slash => some .factor
  | _ => none

/-- Whether a kind may stand before an operand. -/
def isUnaryOperator : Kind → Bool
  | .bang | .minus => true
  | _ => false

end Token.Kind

end LuneSyntax
