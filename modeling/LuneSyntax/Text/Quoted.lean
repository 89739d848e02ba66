import LuneSyntax.Text.Numeral
import LuneSyntax.Text.Printable

/-!
# Quoted text

How a text is shown on one line: between quotation marks, with every character that cannot be
printed written as an escape. The quotation mark is the apostrophe, except that a text which
holds apostrophes and no double quotes is put between double quotes. A quoted text consists of
printable characters only, so it never contains a line feed or starts a control sequence.
-/

set_option autoImplicit false

namespace LuneSyntax.Quoted

/-- The quotation mark that needs the fewest escapes, the apostrophe in case of doubt. -/
def delimiter (text : List Char) : Char :=
  if text.contains '\x27' && !text.contains '\x22' then '\x22' else '\x27'

/-- A character that cannot be printed, by its code point in the shortest of three widths. -/
def escapeCodePoint (codePoint : Nat) : List Char :=
  if codePoint < 0x100 then ['\\', 'x'] ++ Numeral.hexadecimal 2 codePoint
  else if codePoint < 0x10000 then ['\\', 'u'] ++ Numeral.hexadecimal 4 codePoint
  else ['\\', 'U'] ++ Numeral.hexadecimal 8 codePoint

def escape (mark character : Char) : List Char :=
  if character = mark ∨ character = '\\' then ['\\', character]
  else if character = '\n' then ['\\', 'n']
  else if character = '\r' then ['\\', 'r']
  else if character = '\t' then ['\\', 't']
  else if Printable.isPrintable character then [character]
  else escapeCodePoint character.toNat

def encode (text : List Char) : List Char :=
  let mark := delimiter text
  mark :: text.flatMap (escape mark) ++ [mark]

def write (text : String) : String :=
  String.ofList (encode text.toList)

@[simp]
theorem toList_write (text : String) : (write text).toList = encode text.toList := by
  simp [write]

end LuneSyntax.Quoted
