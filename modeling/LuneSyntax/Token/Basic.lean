import LuneSyntax.Text.Numeral
import LuneSyntax.Text.Quoted
import LuneSyntax.Token.Spelling

/-!
# Tokens

A token has a kind, a payload if it is a name or a literal, the span of source that it covers,
and the line on which it starts. Spans and lines are integers, so that a token can be moved
against its source in either direction.
-/

set_option autoImplicit false

namespace LuneSyntax

inductive Payload where
  | number (value : Int)
  | text (value : String)
  deriving DecidableEq, Repr

/-- A payload as it appears in the source or in a message. -/
def Payload.plain : Payload → String
  | .number value => Numeral.decimal value
  | .text value => value

/-- A payload as it appears in a listing of tokens, with texts quoted. -/
def Payload.display : Payload → String
  | .number value => Numeral.decimal value
  | .text value => Quoted.write value

/-- The numbers that are written where a payload is. -/
def Payload.numbers : Payload → List Int
  | .number value => [value]
  | .text _ => []

/-- A token of the source. It covers the characters from start up to stop, stop excluded. -/
structure Token where
  kind : Token.Kind
  payload : Option Payload := none
  start : Int := 0
  stop : Int := 0
  line : Int := 1
  deriving DecidableEq, Repr

namespace Token

/-- The text of a token in messages and S-expressions: its payload, or else its spelling. -/
def text (token : Token) : String :=
  match token.payload with
  | some payload => payload.plain
  | none => token.kind.text

/-- A token in a listing: label, payload and line. The span is left out. -/
def display (token : Token) : String :=
  match token.payload with
  | some payload =>
    "Token(" ++ token.kind.label ++ ", " ++ payload.display ++ ", line " ++
      Numeral.decimal token.line ++ ")"
  | none => "Token(" ++ token.kind.label ++ ", line " ++ Numeral.decimal token.line ++ ")"

/-- The numbers in the text of a token. -/
def textNumbers (token : Token) : List Int :=
  match token.payload with
  | some payload => payload.numbers
  | none => []

/-- The numbers in a listing of a token. -/
def displayNumbers (token : Token) : List Int :=
  token.textNumbers ++ [token.line]

/-- A token in a listing, if all numbers there can be written. -/
def display? (token : Token) : Option String :=
  Numeral.written? token.displayNumbers token.display

/-- The number of an integer literal. Other tokens count as zero. -/
def number (token : Token) : Int :=
  match token.payload with
  | some (.number value) => value
  | _ => 0

/-- The text of a name or of a string literal. Other tokens count as the empty text. -/
def content (token : Token) : String :=
  match token.payload with
  | some (.text value) => value
  | _ => ""

/-- The token moved by a number of characters and a number of lines. -/
def shift (token : Token) (characters lines : Int) : Token :=
  { token with
    start := token.start + characters
    stop := token.stop + characters
    line := token.line + lines }

end Token

end LuneSyntax
