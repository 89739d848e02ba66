import LuneSyntax.Diagnostic.Basic
import LuneSyntax.Grammar.Statement
import LuneSyntax.Token.Stream

/-!
# Programs

A program is a sequence of statements up to the first end-of-input token, with any number of
line breaks before, between and behind them. There is no recovery: the first fault is reported.
-/

set_option autoImplicit false

namespace LuneSyntax.Grammar

/-- The statements up to the end of the input, and the tokens from there on. -/
def program (tokens : List Token) : Except Fault (List Stmt × List Token) :=
  match tokens with
  | [] => .ok ([], [])
  | token :: rest =>
    if token.kind = .newline then program rest
    else if token.kind = .endOfInput then .ok ([], token :: rest)
    else
      match statement (token :: rest) with
      | .error fault => .error fault
      | .ok first =>
        match program first.rest with
        | .error fault => .error fault
        | .ok (others, remaining) => .ok (first.value :: others, remaining)
termination_by tokens.length
decreasing_by
  · exact Nat.lt_succ_self _
  · exact first.shorter

/-- A fault as it is to be reported: against its index, with the token there. Past the end of the
stream that is the last token. -/
def Fault.diagnostic (fault : Fault) (position : Nat) (final : Token) : Diagnostic :=
  .syntactic fault.cause position (fault.rest.headD final)

end LuneSyntax.Grammar

namespace LuneSyntax

/-- The statements of a stream, or the diagnostic that is to be raised. -/
def TokenStream.parse (stream : TokenStream) : Except Diagnostic (List Stmt) :=
  match Grammar.program stream.toList with
  | .ok (statements, _) => .ok statements
  | .error fault => .error (fault.diagnostic (stream.size - fault.rest.length) stream.final)

end LuneSyntax
