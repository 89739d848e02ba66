import LuneSyntax.Token.Basic

/-!
# Faults

What can be wrong with a source, apart from where it is. Lexical faults concern the characters of
one lexeme, syntax faults the token at which the grammar cannot go on. Every fault has a message
and may have a hint. Callers that report faults of their own describe them in words.
-/

set_option autoImplicit false

namespace LuneSyntax

/-- The greatest integer literal, which is the greatest signed number of thirty-two bits. -/
def largestInteger : Nat := 2147483647

inductive NumberFault where
  | missingDigits (radix : Radix)
  | outOfRange
  | described (reason : String) (hint : Option String)
  deriving DecidableEq, Repr

namespace NumberFault

def reason (text : String) : NumberFault → String
  | .missingDigits radix => "expected " ++ radix.name ++ " digits after '" ++ text ++ "'"
  | .outOfRange => "value does not fit in a 32-bit signed integer"
  | .described reason _ => reason

def hint? : NumberFault → Option String
  | .missingDigits _ => none
  | .outOfRange =>
    some ("integer literals must not exceed " ++ Numeral.decimal largestInteger)
  | .described _ hint => hint

end NumberFault

inductive LexicalFault where
  | unterminatedString
  | invalidNumber (text : String) (fault : NumberFault)
  | invalidCharacter (character : Char)
  | described (message : String) (hint : Option String)
  deriving DecidableEq, Repr

namespace LexicalFault

/-- The code point of a character in base sixteen, with upper-case digits. -/
def codePoint (character : Char) : String :=
  "0x" ++ String.ofList ((Numeral.hexadecimal 2 character.toNat).map Char.toUpper)

def message : LexicalFault → String
  | .unterminatedString => "unexpected end of string"
  | .invalidNumber text fault => "invalid integer literal '" ++ text ++ "': " ++ fault.reason text
  | .invalidCharacter character =>
    "invalid character '" ++ character.toString ++ "' (" ++ codePoint character ++ ")"
  | .described message _ => message

def hint? : LexicalFault → Option String
  | .unterminatedString => some "add closing '\x22' to complete the string"
  | .invalidNumber _ fault => fault.hint?
  | .invalidCharacter _ => none
  | .described _ hint => hint

end LexicalFault

inductive SyntaxFault where
  | missingToken (expected : String)
  | invalidType
  | unimplemented (feature : String)
  | invalidStatement
  | invalidExpression
  | described (message : String) (hint : Option String)
  deriving DecidableEq, Repr

namespace SyntaxFault

def message (token : Token) : SyntaxFault → String
  | .missingToken expected => "expected " ++ expected
  | .invalidType => "invalid type '" ++ token.text ++ "'"
  | .unimplemented feature => feature ++ " not implemented"
  | .invalidStatement => "invalid statement type"
  | .invalidExpression => "invalid expression"
  | .described message _ => message

def hint? : SyntaxFault → Option String
  | .missingToken _ => none
  | .invalidType => some "expected 'int' or 'str'"
  | .unimplemented _ => none
  | .invalidStatement => some "statements must start with 'var'"
  | .invalidExpression => some "expected an integer or string literal"
  | .described _ hint => hint

end SyntaxFault

end LuneSyntax
