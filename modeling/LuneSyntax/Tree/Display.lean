import LuneSyntax.Tree.Basic

/-!
# Constructor form

A node written as the name of its form with all fields, in the order in which they are declared.
-/

set_option autoImplicit false

namespace LuneSyntax

def PrimitiveType.display (type : PrimitiveType) : String :=
  "<TypeTag." ++ type.label ++ ": " ++ Quoted.write type.keyword ++ ">"

def displayName (text : String) : String :=
  "Name(value=" ++ Quoted.write text ++ ")"

def Expr.display : Expr → String
  | .integer value => "IntLiteral(value=" ++ Numeral.decimal value ++ ")"
  | .string value => "StringLiteral(value=" ++ Quoted.write value ++ ")"
  | .unary operator operand =>
    "UnaryOp(operator=" ++ operator.display ++ ", operand=" ++ operand.display ++ ")"
  | .binary left operator right =>
    "BinaryOp(left=" ++ left.display ++ ", operator=" ++ operator.display ++ ", right=" ++
      right.display ++ ")"
  | .bare => "Expr()"

def Stmt.display : Stmt → String
  | .expression expr => "ExpressionStatement(expression=" ++ expr.display ++ ")"
  | .declaration name type initializer =>
    "VarDeclaration(name=" ++ displayName name ++ ", var_type=" ++ type.display ++
      ", initializer=" ++ initializer.display ++ ")"
  | .assignment target value =>
    "Assignment(target=" ++ displayName target ++ ", value=" ++ value.display ++ ")"
  | .bare => "Stmt()"

def Node.display : Node → String
  | .name text => displayName text
  | .expression expr => expr.display
  | .statement stmt => stmt.display
  | .bare => "ASTNode()"

/-- A node in constructor form, if all numbers there can be written. -/
def Node.display? (node : Node) : Option String :=
  Numeral.written? (node.numbers Token.displayNumbers) node.display

/-- A node in running text: a name is its text, everything else has constructor form. -/
def Node.plain : Node → String
  | .name text => text
  | .expression expr => expr.display
  | .statement stmt => stmt.display
  | .bare => "ASTNode()"

end LuneSyntax
