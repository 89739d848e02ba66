import LuneSyntax.Lexeme.Basic

/-!
# Integer literals

An integer literal is a run of decimal digits, or a zero, a radix mark and a run of digits of
that radix. The run is as long as possible and its value must fit into thirty-two bits with sign.
-/

set_option autoImplicit false

namespace LuneSyntax.Lexeme.Number

/-- The radix that a letter after a leading zero announces. -/
def markedRadix? (mark : Char) : Option Radix :=
  if mark = 'x' ∨ mark = 'X' then some .hexadecimal
  else if mark = 'b' ∨ mark = 'B' then some .binary
  else none

def ofDigits (radix : Radix) (digits : List Char) (first : Char) (more : List Char) :
    Except Flaw Lexeme :=
  let value := Numeral.value radix digits
  if value ≤ largestInteger then
    .ok ⟨first, more, .token .integer (some (.number value))⟩
  else
    let text := first :: more
    .error ⟨text, .fault (.invalidNumber (String.ofList text) .outOfRange)⟩

/-- A literal with a radix mark. Without digits behind the mark it is at fault. -/
def readMarked (radix : Radix) (zero mark : Char) (rest : List Char) : Except Flaw Lexeme :=
  let digits := rest.takeWhile radix.isDigit
  if digits.isEmpty then
    let text := [zero, mark]
    .error ⟨text, .fault (.invalidNumber (String.ofList text) (.missingDigits radix))⟩
  else ofDigits radix digits zero (mark :: digits)

/-- A literal in base ten. The limit on its length counts leading zeros too. -/
def readDecimal (first : Char) (rest : List Char) : Except Flaw Lexeme :=
  let more := rest.takeWhile Radix.decimal.isDigit
  let digits := first :: more
  if digits.length ≤ digitLimit then ofDigits .decimal digits first more
  else .error ⟨digits, .tooManyDigits digits.length⟩

/-- The integer literal that begins with a digit. -/
def read (first : Char) (rest : List Char) : Except Flaw Lexeme :=
  match rest with
  | [] => readDecimal first rest
  | mark :: after =>
    match markedRadix? mark with
    | some radix => if first = '0' then readMarked radix first mark after else readDecimal first rest
    | none => readDecimal first rest

end LuneSyntax.Lexeme.Number
