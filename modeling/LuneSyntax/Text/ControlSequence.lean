/-!
# Terminal control sequences

A control sequence is an escape character, an opening bracket, any number of parameter
characters, and a letter. Output that does not go to a terminal is printed without them.
-/

set_option autoImplicit false

namespace LuneSyntax.ControlSequence

def isParameter (character : Char) : Bool :=
  character = ';' || character = '?' || character.isDigit

/-- What follows the final letter, if parameters and a letter stand at the head of the text. -/
def finish? (text : List Char) : Option (List Char) :=
  match text.dropWhile isParameter with
  | [] => none
  | character :: rest => if character.isAlpha then some rest else none

theorem length_lt_of_finish? {text rest : List Char} (found : finish? text = some rest) :
    rest.length < text.length := by
  have shorter : (text.dropWhile isParameter).length ≤ text.length :=
    (List.dropWhile_sublist isParameter).length_le
  unfold finish? at found
  split at found
  · cases found
  · rename_i character remaining equal
    split at found
    · cases found
      rw [equal, List.length_cons] at shorter
      omega
    · cases found

/-- The text without its control sequences, which are found from left to right. -/
def strip : List Char → List Char
  | [] => []
  | '\x1b' :: '[' :: rest =>
    match found : finish? rest with
    | some after =>
      have := length_lt_of_finish? found
      strip after
    | none => '\x1b' :: strip ('[' :: rest)
  | character :: rest => character :: strip rest
termination_by text => text.length
decreasing_by
  all_goals
    simp only [List.length_cons]
    omega

/-- A text without escape characters has no control sequences. -/
theorem strip_of_not_mem {text : List Char} (absent : '\x1b' ∉ text) : strip text = text := by
  fun_induction strip text with
  | case1 => rfl
  | case2 => simp at absent
  | case3 => simp at absent
  | case4 character rest _ ih => rw [ih fun member => absent (List.mem_cons_of_mem _ member)]

def plain (text : String) : String :=
  String.ofList (strip text.toList)

end LuneSyntax.ControlSequence
