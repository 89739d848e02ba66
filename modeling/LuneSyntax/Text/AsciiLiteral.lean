import LuneSyntax.Text.Numeral

/-!
# ASCII literals

A text between double quotes, written with characters from the space to the tilde only. Every
other character becomes an escape: a letter for five control characters, and otherwise the
four-digit number of each of its UTF-16 units.
-/

set_option autoImplicit false

namespace LuneSyntax.AsciiLiteral

/-- The UTF-16 units of a code point: itself, or a high and a low surrogate. -/
def units (codePoint : Nat) : List Nat :=
  if codePoint < 0x10000 then [codePoint]
  else [0xD800 + (codePoint - 0x10000) / 0x400, 0xDC00 + (codePoint - 0x10000) % 0x400]

def escapeUnit (unit : Nat) : List Char :=
  ['\\', 'u'] ++ Numeral.hexadecimal 4 unit

/-- The characters that are written as themselves when no shorter escape is due. -/
def isPlain (character : Char) : Bool :=
  0x20 ≤ character.toNat && character.toNat ≤ 0x7E

def escape (character : Char) : List Char :=
  if character = '\x22' ∨ character = '\\' then ['\\', character]
  else if character = '\n' then ['\\', 'n']
  else if character = '\r' then ['\\', 'r']
  else if character = '\t' then ['\\', 't']
  else if character = '\x08' then ['\\', 'b']
  else if character = '\x0c' then ['\\', 'f']
  else if isPlain character then [character]
  else (units character.toNat).flatMap escapeUnit

def encode (text : List Char) : List Char :=
  '\x22' :: text.flatMap escape ++ ['\x22']

def write (text : String) : String :=
  String.ofList (encode text.toList)

@[simp]
theorem toList_write (text : String) : (write text).toList = encode text.toList := by
  simp [write]

end LuneSyntax.AsciiLiteral
