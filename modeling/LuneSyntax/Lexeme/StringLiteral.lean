import LuneSyntax.Lexeme.Basic

/-!
# String literals

The inside of a string literal is a sequence of pieces: a backslash with one of five marks is an
escape, and every other character stands for itself, a backslash before anything else included.
The literal ends at the first double quote that is not part of an escape, on whatever line.
-/

set_option autoImplicit false

namespace LuneSyntax.Lexeme.StringLiteral

/-- The five escapes. -/
inductive Escape where
  | newline
  | tab
  | carriageReturn
  | backslash
  | quote
  deriving DecidableEq, Repr

namespace Escape

def all : List Escape := [.newline, .tab, .carriageReturn, .backslash, .quote]

/-- The character after the backslash. -/
def mark : Escape → Char
  | .newline => 'n'
  | .tab => 't'
  | .carriageReturn => 'r'
  | .backslash => '\\'
  | .quote => '\x22'

/-- The character that the escape stands for. -/
def meaning : Escape → Char
  | .newline => '\n'
  | .tab => '\t'
  | .carriageReturn => '\r'
  | .backslash => '\\'
  | .quote => '\x22'

def ofMark? (character : Char) : Option Escape :=
  all.find? fun escape => escape.mark = character

@[simp]
theorem ofMark?_mark (escape : Escape) : ofMark? escape.mark = some escape := by
  cases escape <;> rfl

theorem mark_of_ofMark? {character : Char} {escape : Escape}
    (found : ofMark? character = some escape) : escape.mark = character := by
  simpa using List.find?_some found

end Escape

/-- One character of the value, with the way in which it is written. -/
inductive Piece where
  | escaped (escape : Escape)
  | plain (character : Char)
  deriving DecidableEq, Repr

namespace Piece

def spelling : Piece → List Char
  | .escaped escape => ['\\', escape.mark]
  | .plain character => [character]

def meaning : Piece → Char
  | .escaped escape => escape.meaning
  | .plain character => character

end Piece

/-- The pieces up to the closing quote, or none if the literal is never closed. -/
def pieces? : List Char → Option (List Piece)
  | [] => none
  | '\x22' :: _ => some []
  | '\\' :: mark :: rest =>
    match Escape.ofMark? mark with
    | some escape => (pieces? rest).map (.escaped escape :: ·)
    | none => (pieces? (mark :: rest)).map (.plain '\\' :: ·)
  | character :: rest => (pieces? rest).map (.plain character :: ·)

def spelling (pieces : List Piece) : List Char :=
  pieces.flatMap Piece.spelling

def meaning (pieces : List Piece) : List Char :=
  pieces.map Piece.meaning

/-- The literal that begins with an opening quote. One that is never closed takes all the rest. -/
def read (opening : Char) (rest : List Char) : Except Flaw Lexeme :=
  match pieces? rest with
  | some pieces =>
    .ok ⟨opening, spelling pieces ++ ['\x22'],
      .token .string (some (.text (String.ofList (meaning pieces))))⟩
  | none => .error ⟨opening :: rest, .fault .unterminatedString⟩

end LuneSyntax.Lexeme.StringLiteral
