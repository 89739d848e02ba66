import LuneSyntax.Diagnostic.Fault

/-!
# Phrases

The grammar is read from the front of a list of tokens. A reader returns a value and the tokens
behind the phrase that it read, and every phrase has at least one token. A reader that fails
returns the tokens from the one at fault on, so that the fault can be located in the stream.
-/

set_option autoImplicit false

namespace LuneSyntax.Grammar

/-- A fault of the first token of a list, or of the end of the stream if the list is empty. -/
structure Fault where
  cause : SyntaxFault
  rest : List Token
  deriving DecidableEq, Repr

/-- What was read from the front of some tokens, and the tokens behind it. -/
structure Phrase (Value : Type) (tokens : List Token) where
  value : Value
  rest : List Token
  shorter : rest.length < tokens.length

namespace Phrase

def single {Value : Type} (value : Value) (token : Token) (rest : List Token) :
    Phrase Value (token :: rest) :=
  ⟨value, rest, Nat.lt_succ_self _⟩

/-- A phrase with one more token in front, which changes its value. -/
def prepend {Value Result : Type} {tokens : List Token} (token : Token) (value : Result)
    (phrase : Phrase Value tokens) : Phrase Result (token :: tokens) :=
  ⟨value, phrase.rest, Nat.lt_succ_of_lt phrase.shorter⟩

@[simp]
theorem value_single {Value : Type} (value : Value) (token : Token) (rest : List Token) :
    (single value token rest).value = value := rfl

@[simp]
theorem rest_single {Value : Type} (value : Value) (token : Token) (rest : List Token) :
    (single value token rest).rest = rest := rfl

@[simp]
theorem value_prepend {Value Result : Type} {tokens : List Token} (token : Token)
    (value : Result) (phrase : Phrase Value tokens) :
    (phrase.prepend token value).value = value := rfl

@[simp]
theorem rest_prepend {Value Result : Type} {tokens : List Token} (token : Token)
    (value : Result) (phrase : Phrase Value tokens) :
    (phrase.prepend token value).rest = phrase.rest := rfl

end Phrase

/-- Reads a phrase from the front of the tokens, or tells which token is at fault. -/
abbrev Reader (Value : Type) : Type :=
  (tokens : List Token) → Except Fault (Phrase Value tokens)

/-- The value and the rest of a phrase, apart from what it was read from. -/
def Reader.run {Value : Type} (reader : Reader Value) (tokens : List Token) :
    Except Fault (Value × List Token) :=
  match reader tokens with
  | .ok phrase => .ok (phrase.value, phrase.rest)
  | .error fault => .error fault

def expect (kind : Token.Kind) (expected : String) : Reader Token
  | [] => .error ⟨.missingToken expected, []⟩
  | token :: rest =>
    if token.kind = kind then .ok (.single token token rest)
    else .error ⟨.missingToken expected, token :: rest⟩

end LuneSyntax.Grammar
