import Mathlib
import LuneSyntax.Proofs.Lexeme.Quotation

/-!
# Shapes of lexemes

The forms that a lexeme can have, stated on its text and on the text behind it without a reader.
The text behind decides only where a run ends, whether two characters belong together, and
whether a comment may end without a line feed.
-/

set_option autoImplicit false

namespace LuneSyntax.Lexeme

/-- Every character of the run is of the class, and the one behind it is not. -/
def MaximalRun (property : Char → Prop) (run rest : List Char) : Prop :=
  (∀ character ∈ run, property character) ∧ ∀ next ∈ rest.head?, ¬ property next

theorem MaximalRun.congr {property other : Char → Prop} {run rest : List Char}
    (maximal : MaximalRun property run rest)
    (same : ∀ character, property character ↔ other character) : MaximalRun other run rest :=
  ⟨fun character member => (same character).mp (maximal.1 character member),
    fun next first holds => maximal.2 next first ((same next).mpr holds)⟩

theorem MaximalRun.eq_nil {property : Char → Prop} {run between rest : List Char}
    (maximal : MaximalRun property run (between ++ rest))
    (inside : ∀ character ∈ between, property character) : between = [] := by
  cases between with
  | nil => rfl
  | cons next between => exact absurd (inside next List.mem_cons_self) (maximal.2 next rfl)

theorem MaximalRun.unique {property : Char → Prop} {run rest other otherRest : List Char}
    (maximal : MaximalRun property run rest) (otherMaximal : MaximalRun property other otherRest)
    (same : run ++ rest = other ++ otherRest) : run = other ∧ rest = otherRest := by
  rcases List.append_eq_append_iff.mp same with ⟨between, rfl, rfl⟩ | ⟨between, rfl, rfl⟩
  · obtain rfl := maximal.eq_nil fun character member =>
      otherMaximal.1 character (List.mem_append_right _ member)
    exact ⟨(List.append_nil _).symm, rfl⟩
  · obtain rfl := otherMaximal.eq_nil fun character member =>
      maximal.1 character (List.mem_append_right _ member)
    exact ⟨List.append_nil _, rfl⟩

theorem maximalRun_takeWhile (property : Char → Bool) (text : List Char) :
    MaximalRun (property · = true) (text.takeWhile property)
      (text.drop (text.takeWhile property).length) := by
  have behind : text.drop (text.takeWhile property).length = text.dropWhile property := by
    have skipped : (text.takeWhile property ++ text.dropWhile property).drop
        (text.takeWhile property).length = text.dropWhile property := List.drop_left
    rwa [List.takeWhile_append_dropWhile] at skipped
  rw [behind]
  refine ⟨fun character member => List.mem_takeWhile_imp member, ?_⟩
  intro next first
  have failing := List.head?_dropWhile_not property text
  rw [Option.mem_def.mp first] at failing
  simpa using failing

/-! ## Words and numbers -/

namespace Word

/-- A word in the sense of the language, which knows letters without accents only. -/
def IsWord (text rest : List Char) : Prop :=
  ∃ first more, text = first :: more ∧ (first.isAlpha ∨ first = '_') ∧
    MaximalRun (fun character => character.isAlphanum ∨ character = '_') more rest

/-- What a word contributes: a token of its own kind if it is reserved, and otherwise a name. -/
inductive Means (text : List Char) : Content → Prop where
  | reserved {kind} : (text, kind) ∈ Token.Kind.words → Means text (.token kind none)
  | name : (∀ kind, (text, kind) ∉ Token.Kind.words) →
      Means text (.token .identifier (some (.text (String.ofList text))))

theorem content_means (text : List Char) : Means text (content text) := by
  unfold content
  cases known : Token.Kind.ofWord? text with
  | some kind => exact .reserved (Token.Kind.mem_of_lookup known)
  | none =>
      refine .name fun kind listed => ?_
      simpa using List.lookup_eq_none_iff.mp known _ listed

theorem toNat_lt_of_isAlphanum {character : Char} (plain : character.isAlphanum = true) :
    character.toNat < 128 := by
  have same : character.toNat = character.val.toNat := rfl
  simp only [Char.isAlphanum, Char.isAlpha, Char.isUpper, Char.isLower, Char.isDigit, ge_iff_le,
    Bool.or_eq_true, Bool.and_eq_true, decide_eq_true_eq, UInt32.le_iff_toNat_le,
    Char.reduceVal, UInt32.reduceToNat] at plain
  omega

/-- A table of plain characters holds those with a property if it agrees with it below 128. -/
theorem contains_iff (table : List Char) (property : Char → Bool)
    (listed : table.all property = true)
    (covered : ∀ code < 128, property (Char.ofNat code) = true →
      table.contains (Char.ofNat code) = true)
    (plain : ∀ character, property character = true → character.isAlphanum = true ∨ character = '_')
    (character : Char) : table.contains character = true ↔ property character = true := by
  constructor
  · intro member
    exact List.all_eq_true.mp listed character (List.contains_iff_mem.mp member)
  · intro holds
    have below : character.toNat < 128 := by
      rcases plain character holds with alphanumeric | rfl
      · exact toNat_lt_of_isAlphanum alphanumeric
      · decide
    simpa using covered character.toNat below (by simpa using holds)

theorem isStart_iff (character : Char) :
    isStart character = true ↔ character.isAlpha = true ∨ character = '_' := by
  have same := contains_iff starts (fun other => other.isAlpha || other = '_') (by decide)
    (by decide +kernel) (by simp +contextual [Char.isAlphanum, or_imp]) character
  simpa [isStart] using same

theorem isContinuing_iff (character : Char) :
    isContinuing character = true ↔ character.isAlphanum = true ∨ character = '_' := by
  have same := contains_iff continuations (fun other => other.isAlphanum || other = '_')
    (by decide) (by decide +kernel) (by simp) character
  simpa [isContinuing] using same

end Word

namespace Number

/-- The letters that announce a radix behind a leading zero. -/
def marks : Radix → List Char
  | .binary => ['b', 'B']
  | .decimal => []
  | .hexadecimal => ['x', 'X']

/-- An integer literal with its radix and its digits. A zero alone is not one in front of a
letter that announces a radix. -/
inductive Written (rest : List Char) : Radix → List Char → List Char → Prop where
  | marked {radix mark digits} : mark ∈ marks radix → digits ≠ [] →
      MaximalRun (· ∈ radix.digits) digits rest →
      Written rest radix digits ('0' :: mark :: digits)
  | plain {digits} : digits ≠ [] → MaximalRun (· ∈ Radix.decimal.digits) digits rest →
      (digits = ['0'] → ∀ mark ∈ rest.head?, ∀ radix, mark ∉ marks radix) →
      Written rest .decimal digits digits

theorem markedRadix?_eq_some_iff {mark : Char} {radix : Radix} :
    markedRadix? mark = some radix ↔ mark ∈ marks radix := by
  unfold markedRadix?
  split
  · rename_i wide
    rcases wide with rfl | rfl <;> cases radix <;> decide
  · split
    · rename_i narrow
      rcases narrow with rfl | rfl <;> cases radix <;> decide
    · rename_i notWide notNarrow
      cases radix <;> simp_all [marks]

end Number

/-! ## Shapes -/

inductive Shape where
  | pair
  | single
  | string
  | integer
  | word
  | lineFeed
  | blank
  | comment
  | joint
  deriving DecidableEq, Repr

/-- The text is a lexeme of the shape in front of the rest, with what it contributes. -/
inductive Matches : Shape → List Char → List Char → Content → Prop where
  | pair {first second kind rest} : ((first, second), kind) ∈ Token.Kind.pairs →
      Matches .pair [first, second] rest (.token kind none)
  | single {first kind rest} : (first, kind) ∈ Token.Kind.singles →
      (∀ second ∈ rest.head?, ∀ joined, ((first, second), joined) ∉ Token.Kind.pairs) →
      Matches .single [first] rest (.token kind none)
  | string {body rest} : StringLiteral.Enclosed body →
      Matches .string ('\x22' :: body ++ ['\x22']) rest
        (.token .string (some (.text (String.ofList (StringLiteral.decode body)))))
  | integer {radix digits text rest} : Number.Written rest radix digits text →
      Matches .integer text rest
        (.token .integer (some (.number (Numeral.value radix digits))))
  | word {text rest content} : Word.IsWord text rest → Word.Means text content →
      Matches .word text rest content
  | lineFeed {rest} : Matches .lineFeed ['\n'] rest (.token .newline none)
  | blank {character rest} : Blank.isBlank character = true → character ≠ '\n' →
      Matches .blank [character] rest .layout
  | comment {body rest} : '\n' ∉ body → Matches .comment ('#' :: body ++ ['\n']) rest .layout
  | lastComment {body} : '\n' ∉ body → Matches .comment ('#' :: body) [] .layout
  | joint {rest} : Matches .joint ['\\', '\n'] rest .layout
  | wideJoint {rest} : Matches .joint ['\\', '\r', '\n'] rest .layout

/-- No lexeme of any shape stands at the head of the text. -/
def BeginsNothing (text : List Char) : Prop :=
  ∀ shape front back content, text = front ++ back → ¬ Matches shape front back content

theorem BeginsNothing.ne_lineFeed {character : Char} {rest : List Char}
    (nothing : BeginsNothing (character :: rest)) : character ≠ '\n' := by
  rintro rfl
  exact nothing .lineFeed ['\n'] rest _ rfl .lineFeed

/-- The lexeme has exactly one shape in front of the rest, or it is a single character that
begins nothing and that the policy passes over. -/
def Segment (policy : UnknownPolicy) (lexeme : Lexeme) (rest : List Char) : Prop :=
  (∃ shape, Matches shape lexeme.text rest lexeme.content ∧
    ∀ other content, Matches other lexeme.text rest content → other = shape) ∨
  ∃ character, lexeme = ⟨character, [], .dropped⟩ ∧ policy = .skip ∧
    BeginsNothing (character :: rest)

/-! ## The first character decides -/

/-- The shape that begins with a character, where the two shapes of operators count as one. -/
def familyOf (first : Char) : Shape :=
  if first = '\n' then .lineFeed
  else if Blank.isBlank first then .blank
  else if first = '\x22' then .string
  else if first = '#' then .comment
  else if first = '\\' then .joint
  else if Radix.decimal.isDigit first then .integer
  else if Word.isStart first then .word
  else .single

def Shape.family : Shape → Shape
  | .pair => .single
  | shape => shape

theorem Number.Written.exists_digit {rest : List Char} {radix : Radix} {digits text : List Char}
    (written : Written rest radix digits text) :
    ∃ first more, text = first :: more ∧ first ∈ Radix.decimal.digits := by
  cases written with
  | marked _ _ _ => exact ⟨'0', _, rfl, by decide⟩
  | plain nonempty run _ =>
      obtain ⟨first, more, rfl⟩ := List.exists_cons_of_ne_nil nonempty
      exact ⟨first, more, rfl, run.1 first List.mem_cons_self⟩

theorem Word.IsWord.exists_start {text rest : List Char} (word : IsWord text rest) :
    ∃ first more, text = first :: more ∧ first ∈ starts := by
  obtain ⟨first, more, rfl, starting, _⟩ := word
  exact ⟨first, more, rfl, List.contains_iff_mem.mp ((isStart_iff first).mpr starting)⟩

theorem Word.IsWord.mem_continuations {text rest : List Char} (word : IsWord text rest)
    {character : Char} (member : character ∈ text) : character ∈ continuations := by
  obtain ⟨first, more, rfl, starting, maximal⟩ := word
  apply List.contains_iff_mem.mp
  apply (isContinuing_iff character).mpr
  rcases List.mem_cons.mp member with rfl | behind
  · rcases starting with letter | underscore
    · exact .inl (by simp [Char.isAlphanum, letter])
    · exact .inr underscore
  · exact maximal.1 character behind

theorem familyOf_of_mem_pairs {first second : Char} {kind : Token.Kind}
    (listed : ((first, second), kind) ∈ Token.Kind.pairs) : familyOf first = .single := by
  have families : ∀ entry ∈ Token.Kind.pairs, familyOf entry.1.1 = .single := by decide
  exact families _ listed

theorem familyOf_of_mem_singles {first : Char} {kind : Token.Kind}
    (listed : (first, kind) ∈ Token.Kind.singles) : familyOf first = .single := by
  have families : ∀ entry ∈ Token.Kind.singles, familyOf entry.1 = .single := by decide
  exact families _ listed

theorem familyOf_of_mem_digits {first : Char} (listed : first ∈ Radix.decimal.digits) :
    familyOf first = .integer := by
  have families : Radix.decimal.digits.all (familyOf · = .integer) = true := by decide
  exact of_decide_eq_true (List.all_eq_true.mp families first listed)

theorem familyOf_of_mem_starts {first : Char} (listed : first ∈ Word.starts) :
    familyOf first = .word := by
  have families : Word.starts.all (familyOf · = .word) = true := by decide +kernel
  exact of_decide_eq_true (List.all_eq_true.mp families first listed)

theorem Matches.exists_first {shape : Shape} {text rest : List Char} {content : Content}
    (found : Matches shape text rest content) :
    ∃ first more, text = first :: more ∧ familyOf first = shape.family := by
  cases found with
  | pair listed => exact ⟨_, _, rfl, familyOf_of_mem_pairs listed⟩
  | single listed _ => exact ⟨_, _, rfl, familyOf_of_mem_singles listed⟩
  | string _ => exact ⟨_, _, rfl, by decide⟩
  | integer written =>
      obtain ⟨first, more, rfl, digit⟩ := written.exists_digit
      exact ⟨first, more, rfl, familyOf_of_mem_digits digit⟩
  | word word _ =>
      obtain ⟨first, more, rfl, start⟩ := word.exists_start
      exact ⟨first, more, rfl, familyOf_of_mem_starts start⟩
  | lineFeed => exact ⟨_, _, rfl, by decide⟩
  | blank white other => exact ⟨_, _, rfl, by simp [familyOf, white, other, Shape.family]⟩
  | comment _ => exact ⟨_, _, rfl, by decide⟩
  | lastComment _ => exact ⟨_, _, rfl, by decide⟩
  | joint => exact ⟨_, _, rfl, by decide⟩
  | wideJoint => exact ⟨_, _, rfl, by decide⟩

theorem Shape.eq_of_family {shape other : Shape} (same : shape.family = other.family) :
    other = shape ∨ (shape = .pair ∧ other = .single) ∨ (shape = .single ∧ other = .pair) := by
  cases shape <;> cases other <;> simp_all [Shape.family]

/-- Two shapes never fit the same text. -/
theorem Matches.unique {shape other : Shape} {text rest : List Char}
    {content otherContent : Content} (found : Matches shape text rest content)
    (otherFound : Matches other text rest otherContent) : other = shape := by
  obtain ⟨first, more, split, family⟩ := found.exists_first
  obtain ⟨otherFirst, otherMore, rfl, otherFamily⟩ := otherFound.exists_first
  obtain ⟨rfl, rfl⟩ := List.cons.inj split
  rcases Shape.eq_of_family (family.symm.trans otherFamily) with
    same | ⟨rfl, rfl⟩ | ⟨rfl, rfl⟩
  · exact same
  · cases found
    cases otherFound
  · cases found
    cases otherFound

end LuneSyntax.Lexeme
