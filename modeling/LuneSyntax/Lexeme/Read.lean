import LuneSyntax.Lexeme.Number
import LuneSyntax.Lexeme.StringLiteral
import LuneSyntax.Lexeme.Word
import LuneSyntax.Text.Blank

/-!
# Reading one lexeme

The character at the head of a text decides which lexeme begins there. Operators of two
characters come before tokens of one, and a line feed is a token rather than a blank. Characters
that begin nothing are dropped or rejected, as the policy says.
-/

set_option autoImplicit false

namespace LuneSyntax

/-- What becomes of a character that begins no lexeme. -/
inductive UnknownPolicy where
  | skip
  | reject
  deriving DecidableEq, Repr

namespace Lexeme

/-- The operator of two characters at the head of a text. -/
def readPair? (first : Char) (rest : List Char) : Option Lexeme :=
  match rest with
  | [] => none
  | second :: _ =>
    (Token.Kind.ofPair? first second).map fun kind => ⟨first, [second], .token kind none⟩

/-- The token of one character at the head of a text. -/
def readSingle? (first : Char) : Option Lexeme :=
  (Token.Kind.ofSingle? first).map fun kind => ⟨first, [], .token kind none⟩

/-- Everything up to the first line feed, and that line feed. -/
def throughLineFeed : List Char → List Char
  | [] => []
  | character :: rest =>
    if character = '\n' then [character] else character :: throughLineFeed rest

/-- A backslash directly before a line end joins two lines. Elsewhere it begins nothing. -/
def readBackslash (backslash : Char) : List Char → Lexeme
  | '\n' :: _ => ⟨backslash, ['\n'], .layout⟩
  | '\r' :: '\n' :: _ => ⟨backslash, ['\r', '\n'], .layout⟩
  | _ => ⟨backslash, [], .dropped⟩

/-- Line ends, blanks, comments and joined lines. Any other character is dropped. -/
def readLayout (first : Char) (rest : List Char) : Lexeme :=
  if first = '\n' then ⟨first, [], .token .newline none⟩
  else if Blank.isBlank first then ⟨first, [], .layout⟩
  else if first = '#' then ⟨first, throughLineFeed rest, .layout⟩
  else if first = '\\' then readBackslash first rest
  else ⟨first, [], .dropped⟩

/-- The lexeme at the head of a non-empty text, or what is wrong with it. -/
def read (first : Char) (rest : List Char) : Except Flaw Lexeme :=
  match readPair? first rest with
  | some lexeme => .ok lexeme
  | none =>
    match readSingle? first with
    | some lexeme => .ok lexeme
    | none =>
      if first = '\x22' then StringLiteral.read first rest
      else if Radix.decimal.isDigit first then Number.read first rest
      else if Word.isStart first then .ok (Word.read first rest)
      else .ok (readLayout first rest)

/-- Whether a policy lets a lexeme pass. Only dropped characters are ever held back. -/
def admittedBy (policy : UnknownPolicy) (lexeme : Lexeme) : Bool :=
  policy = .skip || lexeme.content ≠ .dropped

/-- The lexeme at the head of a text under a policy. A rejected character is not consumed. -/
def readUnder (policy : UnknownPolicy) (first : Char) (rest : List Char) : Except Flaw Lexeme :=
  match read first rest with
  | .error flaw => .error flaw
  | .ok lexeme =>
    if lexeme.admittedBy policy then .ok lexeme
    else .error ⟨[], .fault (.invalidCharacter first)⟩

end Lexeme

end LuneSyntax
