import LuneSyntax.Lexeme.Read
import LuneSyntax.Token.Stream

/-!
# Lexeme sequences

A source is cut into lexemes from left to right, until it ends or a lexeme cannot be completed.
Placing the lexemes one behind the other gives each token its span and its line.
-/

set_option autoImplicit false

namespace LuneSyntax

/-- The lexemes of a source, and the flaw behind them if the rest could not be read. -/
structure Lexing where
  lexemes : List Lexeme
  flaw : Option Lexeme.Flaw
  deriving DecidableEq, Repr

/-- Why and where the reading of a source stopped. -/
structure ScanFailure where
  cause : Lexeme.Cause
  place : Place
  deriving DecidableEq, Repr

/-- Cuts a text into lexemes. -/
def lex (policy : UnknownPolicy) (text : List Char) : Lexing :=
  match text with
  | [] => ⟨[], none⟩
  | first :: rest =>
    match Lexeme.readUnder policy first rest with
    | .error flaw => ⟨[], some flaw⟩
    | .ok lexeme =>
      let following := lex policy (rest.drop lexeme.more.length)
      ⟨lexeme :: following.lexemes, following.flaw⟩
termination_by text.length
decreasing_by
  simp only [List.length_drop, List.length_cons]
  omega

namespace Lexeme

/-- The text that lexemes cover together. -/
def textOf (lexemes : List Lexeme) : List Char :=
  lexemes.flatMap text

/-- The tokens of lexemes that stand one behind the other from a place on. -/
def tokensFrom (place : Place) : List Lexeme → List Token
  | [] => []
  | lexeme :: lexemes =>
    (lexeme.token? place).toList ++ tokensFrom (place.after lexeme.text) lexemes

end Lexeme

namespace Lexing

/-- The tokens that were read, without an end-of-input token. -/
def tokens (lexing : Lexing) : List Token :=
  Lexeme.tokensFrom .start lexing.lexemes

/-- The place behind the last lexeme. -/
def stop (lexing : Lexing) : Place :=
  Place.start.after (Lexeme.textOf lexing.lexemes)

/-- The tokens with an end-of-input token behind them, which is empty and has no payload. -/
def stream (lexing : Lexing) : TokenStream :=
  let stop := lexing.stop
  ⟨lexing.tokens, ⟨.endOfInput, none, stop.offset, stop.offset, stop.line⟩, rfl⟩

/-- The tokens of a source that was read to its end, or why it was not. -/
def outcome (lexing : Lexing) : Except ScanFailure TokenStream :=
  match lexing.flaw with
  | some flaw => .error ⟨flaw.cause, lexing.stop⟩
  | none => .ok lexing.stream

end Lexing

/-- The tokens of a source, or why it cannot be read. -/
def scan (policy : UnknownPolicy) (source : List Char) : Except ScanFailure TokenStream :=
  (lex policy source).outcome

end LuneSyntax
