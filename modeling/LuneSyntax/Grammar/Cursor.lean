import LuneSyntax.Grammar.Program

/-!
# Token cursors

A position in a token stream, from which single tokens and whole phrases are read. The current
token past the end is the last one, and an end-of-input token is never passed. A reader that
fails leaves the cursor at the token at fault, for which a diagnostic is raised.
-/

set_option autoImplicit false

namespace LuneSyntax

/-- A token stream and a position in it, which may lie past the end. -/
structure TokenCursor where
  stream : TokenStream
  position : Nat

namespace TokenCursor

def atStart (stream : TokenStream) : TokenCursor := ⟨stream, 0⟩

/-- The tokens from the cursor on. Past the end there are none. -/
def remaining (cursor : TokenCursor) : List Token :=
  cursor.stream.toList.drop cursor.position

def current (cursor : TokenCursor) : Token :=
  cursor.remaining.headD cursor.stream.final

def atEnd (cursor : TokenCursor) : Bool :=
  cursor.current.kind = .endOfInput

/-- The token before the cursor. At the start of the stream the last token counts as previous. -/
def previous? (cursor : TokenCursor) : Option Token :=
  match cursor.position with
  | 0 => some cursor.stream.final
  | position + 1 => cursor.stream.toList[position]?

/-- The message when a cursor lies so far past the end that no token is before it. -/
def noPreviousMessage : String := "list index out of range"

def seek (cursor : TokenCursor) (position : Nat) : TokenCursor :=
  { cursor with position := position }

/-- Passes the current token, unless the input ends there. -/
def advance (cursor : TokenCursor) : TokenCursor :=
  if cursor.atEnd then cursor else cursor.seek (cursor.position + 1)

/-- Passes the current token if its kind is one of several. -/
def pass? (cursor : TokenCursor) (kinds : List Token.Kind) : Option (Token × TokenCursor) :=
  if kinds.contains cursor.current.kind then some (cursor.current, cursor.advance) else none

def skipNewlines (cursor : TokenCursor) : TokenCursor :=
  let breaks := cursor.remaining.takeWhile fun token => token.kind = .newline
  cursor.seek (cursor.position + breaks.length)

/-- Where the cursor stands once only some of the remaining tokens are left. -/
def advanceTo (cursor : TokenCursor) (rest : List Token) : TokenCursor :=
  cursor.seek (cursor.position + (cursor.remaining.length - rest.length))

/-- Reads from the cursor on, and moves behind what was read or to the fault. -/
def read {Value : Type} (cursor : TokenCursor)
    (reader : List Token → Except Grammar.Fault (Value × List Token)) :
    Except Raised Value × TokenCursor :=
  match reader cursor.remaining with
  | .ok (value, rest) => (.ok value, cursor.advanceTo rest)
  | .error fault =>
    let reached := cursor.advanceTo fault.rest
    (.error (fault.diagnostic reached.position cursor.stream.final).raised, reached)

/-- Passes a token of a given kind, or reports that it is missing. -/
def expect (cursor : TokenCursor) (kind : Token.Kind) (expected : String) :
    Except Raised Token × TokenCursor :=
  match cursor.pass? [kind] with
  | some (token, reached) => (.ok token, reached)
  | none =>
    let diagnostic := Diagnostic.syntactic (.missingToken expected) cursor.position cursor.current
    (.error diagnostic.raised, cursor)

def parse (cursor : TokenCursor) : Except Raised (List Stmt) × TokenCursor :=
  cursor.read Grammar.program

theorem parse_atStart (stream : TokenStream) :
    (atStart stream).parse.1 = stream.parse.mapError Diagnostic.raised := by
  have whole : (atStart stream).remaining = stream.toList := rfl
  unfold parse read TokenStream.parse
  rw [whole]
  cases Grammar.program stream.toList with
  | ok found => rfl
  | error fault =>
    have position : ((atStart stream).advanceTo fault.rest).position =
        stream.size - fault.rest.length := Nat.zero_add _
    dsimp only
    rw [position]
    rfl

end TokenCursor

def TokenStream.unendedMessage : String := "token stream must end with an EOF token"

end LuneSyntax
