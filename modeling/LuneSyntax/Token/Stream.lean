import LuneSyntax.Token.Basic

/-!
# Token streams

A stream of tokens that can be parsed ends with an end-of-input token. The type keeps that last
token apart, so that there is a current token at every position, also past the end. The other
tokens may be of any kind; parsing stops at the first end-of-input token.
-/

set_option autoImplicit false

namespace LuneSyntax

/-- Tokens that end with an end-of-input token. -/
structure TokenStream where
  body : List Token
  final : Token
  final_kind : final.kind = .endOfInput
  deriving DecidableEq, Repr

namespace TokenStream

def toList (stream : TokenStream) : List Token :=
  stream.body ++ [stream.final]

/-- The stream of a list of tokens, unless the list does not end with an end-of-input token. -/
def ofList? (tokens : List Token) : Option TokenStream :=
  match tokens.getLast? with
  | none => none
  | some final =>
    if closed : final.kind = .endOfInput then some ⟨tokens.dropLast, final, closed⟩ else none

@[simp]
theorem ofList?_toList (stream : TokenStream) : ofList? stream.toList = some stream := by
  obtain ⟨body, final, closed⟩ := stream
  simp [ofList?, toList, closed]

def size (stream : TokenStream) : Nat :=
  stream.toList.length

def withoutNewlines (stream : TokenStream) : TokenStream :=
  { stream with body := stream.body.filter fun token => token.kind ≠ .newline }

end TokenStream

end LuneSyntax
