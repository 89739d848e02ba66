/-!
# Paths

Paths are texts whose parts are separated by slashes. A normalized path has no empty part and no
part that consists of a single dot; references to a parent directory stay.
-/

set_option autoImplicit false

namespace LuneSyntax.Path

def separator : Char := '/'

/-- The parts between separators, empty ones included. -/
def split (path : List Char) : List (List Char) :=
  match path with
  | [] => [[]]
  | character :: rest =>
    match split rest with
    | [] => [[character]]
    | part :: parts =>
      if character = separator then [] :: part :: parts else (character :: part) :: parts

def isProper (part : List Char) : Bool :=
  part ≠ [] && part ≠ ['.']

/-- The separators that stay at the head of an absolute path: one, unless there are exactly two. -/
def root (path : List Char) : List Char :=
  match (path.takeWhile (· = separator)).length with
  | 0 => []
  | 2 => [separator, separator]
  | _ => [separator]

/-- The path without empty parts and single dots. The path to nowhere is a single dot. -/
def normalize (path : List Char) : List Char :=
  let normalized := root path ++ List.intercalate [separator] ((split path).filter isProper)
  if normalized = [] then ['.'] else normalized

end LuneSyntax.Path
