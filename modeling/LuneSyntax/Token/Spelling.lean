import LuneSyntax.Token.Kind

/-!
# Spellings

How the kinds that carry no payload are written: ten reserved words, six operators of two
characters and fifteen tokens of one. Each of the three tables is read in both directions.
-/

set_option autoImplicit false

namespace LuneSyntax.Token.Kind

/-- The reserved words. No name is spelled like one of them. -/
def words : List (List Char × Kind) :=
  [(['i', 'f'], .ifWord),
   (['e', 'l', 's', 'e'], .elseWord),
   (['f', 'o', 'r'], .forWord),
   (['w', 'h', 'i', 'l', 'e'], .whileWord),
   (['c', 'a', 's', 'e'], .caseWord),
   (['p', 'r', 'o', 'c'], .procWord),
   (['p', 't', 'r'], .ptrWord),
   (['v', 'a', 'r'], .varWord),
   (['i', 'n', 't'], .intWord),
   (['s', 't', 'r'], .strWord)]

/-- The operators of two characters. They are looked for before those of one. -/
def pairs : List ((Char × Char) × Kind) :=
  [(('+', '='), .plusEqual),
   (('-', '='), .minusEqual),
   (('!', '='), .bangEqual),
   (('=', '='), .equalEqual),
   (('<', '='), .lessEqual),
   (('>', '='), .greaterEqual)]

def singles : List (Char × Kind) :=
  [('(', .leftParenthesis),
   (')', .rightParenthesis),
   ('\x7b', .leftBrace),
   ('\x7d', .rightBrace),
   (',', .comma),
   ('.', .dot),
   (':', .colon),
   ('+', .plus),
   ('-', .minus),
   ('*', .star),
   ('/', .slash),
   ('!', .bang),
   ('=', .equal),
   ('<', .less),
   ('>', .greater)]

def ofWord? (word : List Char) : Option Kind :=
  words.lookup word

def ofPair? (first second : Char) : Option Kind :=
  pairs.lookup (first, second)

def ofSingle? (character : Char) : Option Kind :=
  singles.lookup character

/-- How a kind without payload is written in a listing. A line break and the end of the input
have a conventional text there. Names and literals have none, since their payload is shown. -/
def spelling? : Kind → Option (List Char)
  | .leftParenthesis => some ['(']
  | .rightParenthesis => some [')']
  | .leftBrace => some ['\x7b']
  | .rightBrace => some ['\x7d']
  | .comma => some [',']
  | .dot => some ['.']
  | .colon => some [':']
  | .plus => some ['+']
  | .minus => some ['-']
  | .star => some ['*']
  | .slash => some ['/']
  | .bang => some ['!']
  | .bangEqual => some ['!', '=']
  | .equalEqual => some ['=', '=']
  | .greater => some ['>']
  | .greaterEqual => some ['>', '=']
  | .less => some ['<']
  | .lessEqual => some ['<', '=']
  | .equal => some ['=']
  | .plusEqual => some ['+', '=']
  | .minusEqual => some ['-', '=']
  | .ifWord => some ['i', 'f']
  | .elseWord => some ['e', 'l', 's', 'e']
  | .forWord => some ['f', 'o', 'r']
  | .whileWord => some ['w', 'h', 'i', 'l', 'e']
  | .caseWord => some ['c', 'a', 's', 'e']
  | .procWord => some ['p', 'r', 'o', 'c']
  | .ptrWord => some ['p', 't', 'r']
  | .varWord => some ['v', 'a', 'r']
  | .intWord => some ['i', 'n', 't']
  | .strWord => some ['s', 't', 'r']
  | .identifier => none
  | .integer => none
  | .string => none
  | .newline => some ['\\', 'n']
  | .endOfInput => some ['<', 'e', 'o', 'f', '>']

/-- The text that stands for a kind: its spelling, or else its label. -/
def text (kind : Kind) : String :=
  match kind.spelling? with
  | some spelling => String.ofList spelling
  | none => kind.label

theorem mem_of_lookup {Key Value : Type} [BEq Key] [LawfulBEq Key] {key : Key} {value : Value}
    {entries : List (Key × Value)} (found : entries.lookup key = some value) :
    (key, value) ∈ entries := by
  induction entries with
  | nil => cases found
  | cons entry entries ih =>
    rw [List.lookup_cons] at found
    split at found
    · rename_i equal
      cases found
      rw [eq_of_beq equal]
      exact List.mem_cons_self
    · exact List.mem_cons_of_mem _ (ih found)

theorem spelling?_of_mem_words {word : List Char} {kind : Kind} (listed : (word, kind) ∈ words) :
    kind.spelling? = some word := by
  have recorded : ∀ entry ∈ words, entry.2.spelling? = some entry.1 := by decide
  exact recorded _ listed

theorem spelling?_of_mem_pairs {first second : Char} {kind : Kind}
    (listed : ((first, second), kind) ∈ pairs) : kind.spelling? = some [first, second] := by
  have recorded : ∀ entry ∈ pairs, entry.2.spelling? = some [entry.1.1, entry.1.2] := by decide
  exact recorded _ listed

theorem spelling?_of_mem_singles {character : Char} {kind : Kind}
    (listed : (character, kind) ∈ singles) : kind.spelling? = some [character] := by
  have recorded : ∀ entry ∈ singles, entry.2.spelling? = some [entry.1] := by decide
  exact recorded _ listed

theorem toList_text {kind : Kind} {spelling : List Char}
    (spelled : kind.spelling? = some spelling) : kind.text.toList = spelling := by
  rw [text, spelled, String.toList_ofList]

end LuneSyntax.Token.Kind
