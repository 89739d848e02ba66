import LuneSyntax.Text.AsciiLiteral
import LuneSyntax.Tree.Basic

/-!
# S-expressions

A program is printed as one S-expression per line. Operators come first, strings are written as
ASCII literals, and an expression statement is printed as its expression. A bare node has no
S-expression: inside another one it is printed as a placeholder, and as a line it is refused.
-/

set_option autoImplicit false

namespace LuneSyntax

def bareText : String := "None"

def Expr.render : Expr → String
  | .integer value => Numeral.decimal value
  | .string value => AsciiLiteral.write value
  | .unary operator operand => "(" ++ operator.text ++ " " ++ operand.render ++ ")"
  | .binary left operator right =>
    "(" ++ operator.text ++ " " ++ left.render ++ " " ++ right.render ++ ")"
  | .bare => bareText

def Stmt.render : Stmt → String
  | .expression expr => expr.render
  | .declaration name type initializer =>
    "(var " ++ name ++ " " ++ type.keyword ++ " " ++ initializer.render ++ ")"
  | .assignment target value => "(set " ++ target ++ " " ++ value.render ++ ")"
  | .bare => bareText

def Node.render : Node → String
  | .name text => text
  | .expression expr => expr.render
  | .statement stmt => stmt.render
  | .bare => bareText

def Node.isPrintable : Node → Bool
  | .name _ => true
  | .expression expr => expr ≠ .bare
  | .statement (.expression expr) => expr ≠ .bare
  | .statement stmt => stmt ≠ .bare
  | .bare => false

namespace SExpression

/-- The first node of a program that cannot be printed. -/
structure Unprintable where
  index : Nat
  deriving DecidableEq, Repr

def Unprintable.message (refused : Unprintable) : String :=
  "sequence item " ++ Numeral.decimal refused.index ++ ": expected str instance, NoneType found"

def print (nodes : List Node) : Except Unprintable String :=
  match nodes.findIdx? fun node => !node.isPrintable with
  | some index => .error ⟨index⟩
  | none => .ok ("\n".intercalate (nodes.map Node.render))

/-- Why a program is not printed. -/
inductive Refusal where
  | overlongNumber
  | unprintable (refused : Unprintable)
  deriving DecidableEq, Repr

/-- Prints a program. A number that is too long is found before a node that cannot be printed. -/
def write (nodes : List Node) : Except Refusal String :=
  if ∀ number ∈ nodes.flatMap (Node.numbers Token.textNumbers), Numeral.IsWritable number then
    (print nodes).mapError .unprintable
  else .error .overlongNumber

def printProgram (statements : List Stmt) : Except Unprintable String :=
  print (statements.map Node.statement)

end SExpression

end LuneSyntax
