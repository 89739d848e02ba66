/-!
# Places

Where a reader stands in a source: how many characters lie before it and on which line it is.
Only line feeds count lines, and the first line has number one.
-/

set_option autoImplicit false

namespace LuneSyntax

structure Place where
  offset : Nat
  line : Nat
  deriving DecidableEq, Repr

namespace Place

def start : Place := ⟨0, 1⟩

def after (place : Place) (text : List Char) : Place :=
  ⟨place.offset + text.length, place.line + text.count '\n'⟩

@[simp]
theorem after_nil (place : Place) : place.after [] = place := rfl

@[simp]
theorem after_append (place : Place) (left right : List Char) :
    place.after (left ++ right) = (place.after left).after right := by
  simp [after, Nat.add_assoc]

end Place

end LuneSyntax
