import LuneSyntax.Diagnostic.Basic
import LuneSyntax.Source.Place

/-!
# Lexemes

The pieces into which a source is cut. A lexeme is a non-empty run of characters. It becomes a
token, or it is layout between tokens, or it is a single character that begins nothing and is
dropped. Where a lexeme cannot be completed there is a flaw instead.
-/

set_option autoImplicit false

namespace LuneSyntax

/-- What a lexeme contributes to the token stream. -/
inductive Lexeme.Content where
  | token (kind : Token.Kind) (payload : Option Payload)
  | layout
  | dropped
  deriving DecidableEq, Repr

/-- A non-empty run of characters and what it contributes. -/
structure Lexeme where
  first : Char
  more : List Char
  content : Lexeme.Content
  deriving DecidableEq, Repr

namespace Lexeme

def text (lexeme : Lexeme) : List Char :=
  lexeme.first :: lexeme.more

/-- The token that a lexeme becomes at a place. Layout and dropped characters become none. -/
def token? (lexeme : Lexeme) (place : Place) : Option Token :=
  match lexeme.content with
  | .token kind payload =>
    some ⟨kind, payload, place.offset, (place.after lexeme.text).offset, place.line⟩
  | .layout => none
  | .dropped => none

/-- The longest run of decimal digits whose value is computed. -/
def digitLimit : Nat := Numeral.digitLimit

/-- Why a lexeme cannot be completed. A run of decimal digits that is too long to be converted
is not a fault of the language but a limit of the reader. -/
inductive Cause where
  | fault (fault : LexicalFault)
  | tooManyDigits (digits : Nat)
  deriving DecidableEq, Repr

def digitLimitMessage (digits : Nat) : String :=
  "Exceeds the limit (" ++ Numeral.decimal digitLimit ++
    " digits) for integer string conversion: value has " ++ Numeral.decimal digits ++
    " digits; use sys.set_int_max_str_digits() to increase the limit"

/-- A lexeme that was begun and could not be completed, with the part of it that was read. -/
structure Flaw where
  consumed : List Char
  cause : Cause
  deriving DecidableEq, Repr

end Lexeme

end LuneSyntax
