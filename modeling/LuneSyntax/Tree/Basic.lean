import LuneSyntax.Token.Basic

/-!
# Syntax trees

Expressions, statements, and the nodes of which trees consist. An operator node keeps the whole
operator token, so that a diagnostic can point at it. The grammar produces declarations only;
the other statements, and bare nodes without content, are built by callers.
-/

set_option autoImplicit false

namespace LuneSyntax

/-- The primitive types of declarations. No source spells the boolean type. -/
inductive PrimitiveType where
  | integer
  | string
  | boolean
  deriving DecidableEq, Repr

namespace PrimitiveType

def all : List PrimitiveType := [.integer, .string, .boolean]

def keyword : PrimitiveType → String
  | .integer => "int"
  | .string => "str"
  | .boolean => "bool"

def label : PrimitiveType → String
  | .integer => "INTEGER"
  | .string => "STRING"
  | .boolean => "BOOLEAN"

def ofKind? : Token.Kind → Option PrimitiveType
  | .intWord => some .integer
  | .strWord => some .string
  | _ => none

end PrimitiveType

/-- An expression. A bare one has no content and no source produces it. -/
inductive Expr where
  | integer (value : Int)
  | string (value : String)
  | unary (operator : Token) (operand : Expr)
  | binary (left : Expr) (operator : Token) (right : Expr)
  | bare
  deriving DecidableEq, Repr

/-- A statement. A bare one has no content and no source produces it. -/
inductive Stmt where
  | expression (expr : Expr)
  | declaration (name : String) (type : PrimitiveType) (initializer : Expr)
  | assignment (target : String) (value : Expr)
  | bare
  deriving DecidableEq, Repr

/-- Anything that a tree can hold: a name, an expression or a statement. -/
inductive Node where
  | name (text : String)
  | expression (expr : Expr)
  | statement (stmt : Stmt)
  | bare
  deriving DecidableEq, Repr

/-- The name of the form that a node has. -/
def Expr.label : Expr → String
  | .integer _ => "IntLiteral"
  | .string _ => "StringLiteral"
  | .unary _ _ => "UnaryOp"
  | .binary _ _ _ => "BinaryOp"
  | .bare => "Expr"

@[inherit_doc Expr.label]
def Stmt.label : Stmt → String
  | .expression _ => "ExpressionStatement"
  | .declaration _ _ _ => "VarDeclaration"
  | .assignment _ _ => "Assignment"
  | .bare => "Stmt"

@[inherit_doc Expr.label]
def Node.label : Node → String
  | .name _ => "Name"
  | .expression expr => expr.label
  | .statement stmt => stmt.label
  | .bare => "ASTNode"

/-- The numbers in a tree: those of its literals, and those that are written for its operators. -/
def Expr.numbers (ofOperator : Token → List Int) : Expr → List Int
  | .integer value => [value]
  | .string _ => []
  | .unary operator operand => ofOperator operator ++ operand.numbers ofOperator
  | .binary left operator right =>
    left.numbers ofOperator ++ ofOperator operator ++ right.numbers ofOperator
  | .bare => []

@[inherit_doc Expr.numbers]
def Stmt.numbers (ofOperator : Token → List Int) : Stmt → List Int
  | .expression expr => expr.numbers ofOperator
  | .declaration _ _ initializer => initializer.numbers ofOperator
  | .assignment _ value => value.numbers ofOperator
  | .bare => []

@[inherit_doc Expr.numbers]
def Node.numbers (ofOperator : Token → List Int) : Node → List Int
  | .name _ => []
  | .expression expr => expr.numbers ofOperator
  | .statement stmt => stmt.numbers ofOperator
  | .bare => []

end LuneSyntax
