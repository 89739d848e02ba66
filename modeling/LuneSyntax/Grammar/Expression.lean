import LuneSyntax.Grammar.Phrase
import LuneSyntax.Grammar.Precedence
import LuneSyntax.Tree.Basic

/-!
# Expressions

One reader for each level of precedence. A binary level reads operands of the next tighter level
and joins them from the left for as long as an operator of its own follows. Unary operators nest
to the right. Which token is read is decided by kinds alone.
-/

set_option autoImplicit false

namespace LuneSyntax.Grammar

def literal : Reader Expr
  | [] => .error ⟨.invalidExpression, []⟩
  | token :: rest =>
    match token.kind with
    | .integer => .ok (.single (.integer token.number) token rest)
    | .string => .ok (.single (.string token.content) token rest)
    | _ => .error ⟨.invalidExpression, token :: rest⟩

/-- Any number of unary operators and then a literal. -/
def unary : Reader Expr
  | [] => literal []
  | token :: rest =>
    if token.kind.isUnaryOperator then
      match unary rest with
      | .error fault => .error fault
      | .ok operand => .ok (operand.prepend token (.unary token operand.value))
    else literal (token :: rest)

/-- Joins further operands to a left operand that was read from some tokens. -/
def joinOperands (level : Precedence) (operand : Reader Expr) {tokens : List Token}
    (left : Expr) : (rest : List Token) → rest.length < tokens.length →
    Except Fault (Phrase Expr tokens)
  | [], shorter => .ok ⟨left, [], shorter⟩
  | operator :: after, shorter =>
    if operator.kind.binaryLevel? = some level then
      match operand after with
      | .error fault => .error fault
      | .ok right =>
        joinOperands level operand (.binary left operator right.value) right.rest
          (Nat.lt_trans right.shorter (Nat.lt_of_succ_lt shorter))
    else .ok ⟨left, operator :: after, shorter⟩
termination_by rest => rest.length
decreasing_by exact Nat.lt_succ_of_lt right.shorter

/-- Operands of a tighter level, joined from the left by the operators of a level. -/
def leftAssociative (level : Precedence) (operand : Reader Expr) : Reader Expr := fun tokens =>
  match operand tokens with
  | .error fault => .error fault
  | .ok first => joinOperands level operand first.value first.rest first.shorter

def factor : Reader Expr := leftAssociative .factor unary

def term : Reader Expr := leftAssociative .term factor

def comparison : Reader Expr := leftAssociative .comparison term

def equality : Reader Expr := leftAssociative .equality comparison

def atLevel : Precedence → Reader Expr
  | .equality => equality
  | .comparison => comparison
  | .term => term
  | .factor => factor
  | .unary => unary
  | .literal => literal

def expression : Reader Expr := equality

end LuneSyntax.Grammar
