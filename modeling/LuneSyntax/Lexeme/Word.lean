import LuneSyntax.Lexeme.Basic

/-!
# Words

A word is a letter or underscore and all letters, digits and underscores that follow. It is a
reserved word or else a name.
-/

set_option autoImplicit false

namespace LuneSyntax.Lexeme.Word

/-- The letters of either case, without accents. -/
def letters : List Char :=
  ['a', 'b', 'c', 'd', 'e', 'f', 'g', 'h', 'i', 'j', 'k', 'l', 'm',
   'n', 'o', 'p', 'q', 'r', 's', 't', 'u', 'v', 'w', 'x', 'y', 'z',
   'A', 'B', 'C', 'D', 'E', 'F', 'G', 'H', 'I', 'J', 'K', 'L', 'M',
   'N', 'O', 'P', 'Q', 'R', 'S', 'T', 'U', 'V', 'W', 'X', 'Y', 'Z']

def starts : List Char := letters ++ ['_']

def continuations : List Char := letters ++ Radix.decimal.digits ++ ['_']

def isStart (character : Char) : Bool :=
  starts.contains character

def isContinuing (character : Char) : Bool :=
  continuations.contains character

/-- What a word contributes: a token of its own kind if it is reserved, and otherwise a name. -/
def content (word : List Char) : Content :=
  match Token.Kind.ofWord? word with
  | some kind => .token kind none
  | none => .token .identifier (some (.text (String.ofList word)))

/-- The longest word that begins with a character. -/
def read (first : Char) (rest : List Char) : Lexeme :=
  let more := rest.takeWhile isContinuing
  ⟨first, more, content (first :: more)⟩

end LuneSyntax.Lexeme.Word
