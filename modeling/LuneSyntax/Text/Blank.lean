/-!
# Blank characters

The characters that separate tokens without being one. A line feed is blank too, although the
reader of lexemes looks for it first because it ends an expression.
-/

set_option autoImplicit false

namespace LuneSyntax.Blank

/-- Closed ranges of the code points that count as blank. -/
def ranges : List (Nat × Nat) :=
  [(0x09, 0x0D), (0x1C, 0x20), (0x85, 0x85), (0xA0, 0xA0), (0x1680, 0x1680), (0x2000, 0x200A),
   (0x2028, 0x2029), (0x202F, 0x202F), (0x205F, 0x205F), (0x3000, 0x3000)]

def isBlank (character : Char) : Bool :=
  ranges.any fun range => range.1 ≤ character.toNat && character.toNat ≤ range.2

end LuneSyntax.Blank
