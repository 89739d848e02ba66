/-!
# Kinds of token

Every token belongs to one of thirty-six kinds. Reserved words have kinds of their own, so that
the grammar never compares the text of a name. Diagnostics and token listings show a kind by
its label.
-/

set_option autoImplicit false

namespace LuneSyntax.Token

inductive Kind where
  | leftParenthesis
  | rightParenthesis
  | leftBrace
  | rightBrace
  | comma
  | dot
  | colon
  | plus
  | minus
  | star
  | slash
  | bang
  | bangEqual
  | equalEqual
  | greater
  | greaterEqual
  | less
  | lessEqual
  | equal
  | plusEqual
  | minusEqual
  | ifWord
  | elseWord
  | forWord
  | whileWord
  | caseWord
  | procWord
  | ptrWord
  | varWord
  | intWord
  | strWord
  | identifier
  | integer
  | string
  | newline
  | endOfInput
  deriving DecidableEq, Repr, Inhabited

namespace Kind

/-- Every kind, in the order in which kinds are numbered. -/
def all : List Kind :=
  [.leftParenthesis, .rightParenthesis, .leftBrace, .rightBrace, .comma, .dot, .colon, .plus,
   .minus, .star, .slash, .bang, .bangEqual, .equalEqual, .greater, .greaterEqual, .less,
   .lessEqual, .equal, .plusEqual, .minusEqual, .ifWord, .elseWord, .forWord, .whileWord,
   .caseWord, .procWord, .ptrWord, .varWord, .intWord, .strWord, .identifier, .integer,
   .string, .newline, .endOfInput]

theorem mem_all (kind : Kind) : kind ∈ all := by
  cases kind <;> decide

def label : Kind → String
  | .leftParenthesis => "LPAREN"
  | .rightParenthesis => "RPAREN"
  | .leftBrace => "LBRACE"
  | .rightBrace => "RBRACE"
  | .comma => "COMMA"
  | .dot => "DOT"
  | .colon => "COLON"
  | .plus => "PLUS"
  | .minus => "MINUS"
  | .star => "STAR"
  | .slash => "SLASH"
  | .bang => "BANG"
  | .bangEqual => "BANG_EQUAL"
  | .equalEqual => "EQUAL_EQUAL"
  | .greater => "GREATER"
  | .greaterEqual => "GREATER_EQUAL"
  | .less => "LESS"
  | .lessEqual => "LESS_EQUAL"
  | .equal => "EQUAL"
  | .plusEqual => "PLUS_EQUAL"
  | .minusEqual => "MINUS_EQUAL"
  | .ifWord => "IF"
  | .elseWord => "ELSE"
  | .forWord => "FOR"
  | .whileWord => "WHILE"
  | .caseWord => "CASE"
  | .procWord => "PROC"
  | .ptrWord => "PTR"
  | .varWord => "VAR"
  | .intWord => "INT_TYPE"
  | .strWord => "STR_TYPE"
  | .identifier => "IDENTIFIER"
  | .integer => "INT_LITERAL"
  | .string => "STRING_LITERAL"
  | .newline => "NEWLINE"
  | .endOfInput => "EOF"

end Kind

end LuneSyntax.Token
