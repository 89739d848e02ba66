import LuneSyntax.Diagnostic.Fault

/-!
# Diagnostics

A fault together with where it was found. A lexical fault is reported against a line and an
offset of the source, a syntax fault against an index of the token stream and the token there.
The text has a header line, and a second line if there is a hint. It is written when the fault is
raised, which fails if a number in it is too long.
-/

set_option autoImplicit false

namespace LuneSyntax

/-- A reported fault. Positions are integers, since a caller may count from anywhere. -/
inductive Diagnostic where
  | general (message : String) (hint : Option String)
  | lexical (fault : LexicalFault) (line position : Int)
  | syntactic (fault : SyntaxFault) (position : Int) (token : Token)
  deriving DecidableEq, Repr

namespace Diagnostic

def message : Diagnostic → String
  | .general message _ => message
  | .lexical fault _ _ => fault.message
  | .syntactic fault _ token => fault.message token

def hint? : Diagnostic → Option String
  | .general _ hint => hint
  | .lexical fault _ _ => fault.hint?
  | .syntactic fault _ _ => fault.hint?

/-- The line of the fault, which for a syntax fault is the line of its token. -/
def line? : Diagnostic → Option Int
  | .general _ _ => none
  | .lexical _ line _ => some line
  | .syntactic _ _ token => some token.line

def position? : Diagnostic → Option Int
  | .general _ _ => none
  | .lexical _ _ position => some position
  | .syntactic _ position _ => some position

def heading : Diagnostic → String
  | .general _ _ => "error: "
  | .lexical _ line position =>
    "LexerError: error at line " ++ Numeral.decimal line ++ ", position " ++
      Numeral.decimal position ++ ": "
  | .syntactic _ position token =>
    "ParseError: error at position " ++ Numeral.decimal position ++ ", token " ++
      token.display ++ ": "

/-- The diagnostic as it is printed. An empty hint is left out like a missing one. -/
def text (diagnostic : Diagnostic) : String :=
  let header := diagnostic.heading ++ diagnostic.message
  match diagnostic.hint? with
  | none => header
  | some hint => if hint.isEmpty then header else header ++ "\nhint: " ++ hint

/-- The numbers in the text of a diagnostic. -/
def numbers : Diagnostic → List Int
  | .general _ _ => []
  | .lexical _ line position => [line, position]
  | .syntactic _ position token => position :: token.displayNumbers

/-- Every number in the text is short enough to be written. -/
def IsWritable (diagnostic : Diagnostic) : Prop :=
  ∀ number ∈ diagnostic.numbers, Numeral.IsWritable number

instance (diagnostic : Diagnostic) : Decidable diagnostic.IsWritable :=
  inferInstanceAs (Decidable (∀ number ∈ diagnostic.numbers, Numeral.IsWritable number))

def text? (diagnostic : Diagnostic) : Option String :=
  Numeral.written? diagnostic.numbers diagnostic.text

/-- A text that ought to be a single character, but is not. -/
structure NotOneCharacter where
  length : Nat
  deriving DecidableEq, Repr

def NotOneCharacter.message (refused : NotOneCharacter) : String :=
  "ord() expected a character, but string of length " ++ Numeral.decimal refused.length ++ " found"

/-- The diagnostic for an invalid character that is given as a text. -/
def invalidCharacter (text : String) (line position : Int) :
    Except NotOneCharacter Diagnostic :=
  match text.toList with
  | [character] => .ok (.lexical (.invalidCharacter character) line position)
  | characters => .error ⟨characters.length⟩

end Diagnostic

/-- What is raised for a fault: the diagnostic, or the failure to write its text. -/
inductive Raised where
  | diagnostic (diagnostic : Diagnostic)
  | overlongNumber
  deriving DecidableEq, Repr

namespace Diagnostic

/-- Raises a fault, for which its text is written. -/
def raised (diagnostic : Diagnostic) : Raised :=
  match diagnostic.text? with
  | some _ => .diagnostic diagnostic
  | none => .overlongNumber

variable {diagnostic : Diagnostic}

theorem raised_of_isWritable (writable : diagnostic.IsWritable) :
    diagnostic.raised = .diagnostic diagnostic := by
  have written : diagnostic.text? = some diagnostic.text := if_pos writable
  rw [raised, written]

theorem raised_of_mem_numbers {number : Int} (member : number ∈ diagnostic.numbers)
    (overlong : ¬ Numeral.IsWritable number) : diagnostic.raised = .overlongNumber := by
  have refused : diagnostic.text? = none := if_neg fun writable => overlong (writable number member)
  rw [raised, refused]

end Diagnostic

end LuneSyntax
