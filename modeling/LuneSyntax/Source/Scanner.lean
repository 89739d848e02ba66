import LuneSyntax.Lexeme.Sequence

/-!
# Scanners

A scanner reads a source one lexeme at a time and collects the tokens. It can be moved by hand,
and its source and its policy can be exchanged while it stays where it is. A full scan starts
afresh. When a lexeme cannot be completed, the scanner stands behind what it had read of it.
-/

set_option autoImplicit false

namespace LuneSyntax

/-- The state of reading a source. The lexeme at hand runs from start up to position. -/
structure Scanner where
  source : List Char
  policy : UnknownPolicy
  tokens : List Token := []
  start : Nat := 0
  position : Nat := 0
  line : Nat := 1
  deriving DecidableEq, Repr

namespace Scanner

inductive Turn where
  | atEnd
  | read (token? : Option Token)
  | failed (failure : ScanFailure)
  deriving DecidableEq, Repr

def remaining (scanner : Scanner) : List Char :=
  scanner.source.drop scanner.position

def atEnd (scanner : Scanner) : Bool :=
  scanner.source.length ≤ scanner.position

/-- The character some way ahead, if the source reaches that far. -/
def peek? (scanner : Scanner) (distance : Nat) : Option Char :=
  scanner.source[scanner.position + distance]?

/-- Passes one character without looking at it, even past the end. -/
def advance (scanner : Scanner) : Scanner :=
  { scanner with position := scanner.position + 1 }

/-- Moves past a text that stands at the position, and counts its lines. -/
def past (scanner : Scanner) (text : List Char) : Scanner :=
  { scanner with
    position := scanner.position + text.length
    line := scanner.line + text.count '\n' }

/-- Moves behind the next line feed, or to the end. -/
def skipComment (scanner : Scanner) : Scanner :=
  scanner.past (Lexeme.throughLineFeed scanner.remaining)

def place (scanner : Scanner) : Place :=
  ⟨scanner.position, scanner.line⟩

@[simp]
theorem place_past (scanner : Scanner) (text : List Char) :
    (scanner.past text).place = scanner.place.after text := rfl

/-- Reads the lexeme at the position. At the end nothing happens. -/
def step (scanner : Scanner) : Turn × Scanner :=
  match scanner.remaining with
  | [] => (.atEnd, scanner)
  | first :: rest =>
    let opened := { scanner with start := scanner.position }
    match Lexeme.readUnder scanner.policy first rest with
    | .ok lexeme =>
      let token? := lexeme.token? scanner.place
      (.read token?, { opened.past lexeme.text with tokens := scanner.tokens ++ token?.toList })
    | .error flaw => (.failed ⟨flaw.cause, scanner.place⟩, opened.past flaw.consumed)

def scan (scanner : Scanner) : Except ScanFailure TokenStream × Scanner :=
  let lexing := lex scanner.policy scanner.source
  let stop := lexing.stop
  let reached :=
    { scanner with
      tokens := lexing.tokens
      start := stop.offset
      position := stop.offset
      line := stop.line }
  match lexing.flaw with
  | some flaw => (.error ⟨flaw.cause, stop⟩, reached.past flaw.consumed)
  | none =>
    let stream := lexing.stream
    (.ok stream, { reached with tokens := stream.toList })

end Scanner

end LuneSyntax
