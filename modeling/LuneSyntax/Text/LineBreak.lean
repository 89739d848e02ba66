/-!
# Line breaks

Files may end their lines by a carriage return, a line feed, or both in this order. Reading a
file turns each of the three into one line feed.
-/

set_option autoImplicit false

namespace LuneSyntax.LineBreak

def normalize : List Char → List Char
  | [] => []
  | '\r' :: '\n' :: rest => '\n' :: normalize rest
  | character :: rest => (if character = '\r' then '\n' else character) :: normalize rest

/-- Text without carriage returns is unchanged. -/
theorem normalize_of_not_mem {text : List Char} (absent : '\r' ∉ text) :
    normalize text = text := by
  fun_induction normalize text with
  | case1 => rfl
  | case2 rest _ => simp at absent
  | case3 character rest _ ih =>
    simp only [List.mem_cons, not_or] at absent
    rw [ih absent.2, if_neg (fun equal => absent.1 equal.symm)]

end LuneSyntax.LineBreak
