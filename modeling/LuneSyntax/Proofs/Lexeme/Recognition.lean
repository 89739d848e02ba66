import LuneSyntax.Proofs.Lexeme.Reading

/-!
# Recognition

The converse of reading: a text that has a shape in front of a rest is read there as one lexeme,
with what the shape says that it contributes. For an integer literal the reader also checks the
length and the value of the digits.
-/

set_option autoImplicit false

namespace LuneSyntax.Lexeme

/-! ## The reader that is asked -/

theorem readPair?_eq_none {first : Char} {rest : List Char}
    (apart : ∀ second ∈ rest.head?, ∀ kind, ((first, second), kind) ∉ Token.Kind.pairs) :
    readPair? first rest = none := by
  cases rest with
  | nil => rfl
  | cons second after =>
      refine Option.map_eq_none_iff.mpr ?_
      cases known : Token.Kind.ofPair? first second with
      | none => rfl
      | some kind => exact absurd (Token.Kind.mem_of_lookup known) (apart second rfl kind)

theorem readPair?_of_family {first : Char} (family : familyOf first ≠ .single)
    (rest : List Char) : readPair? first rest = none :=
  readPair?_eq_none fun _ _ _ listed => family (familyOf_of_mem_pairs listed)

theorem readSingle?_of_family {first : Char} (family : familyOf first ≠ .single) :
    readSingle? first = none := by
  refine Option.map_eq_none_iff.mpr ?_
  cases known : Token.Kind.ofSingle? first with
  | none => rfl
  | some kind => exact absurd (familyOf_of_mem_singles (Token.Kind.mem_of_lookup known)) family

/-- A character that begins no operator is left to the readers of literals, words and layout. -/
theorem read_of_family {first : Char} (family : familyOf first ≠ .single) (rest : List Char) :
    read first rest =
      if first = '\x22' then StringLiteral.read first rest
      else if Radix.decimal.isDigit first then Number.read first rest
      else if Word.isStart first then .ok (Word.read first rest)
      else .ok (readLayout first rest) := by
  rw [read, readPair?_of_family family, readSingle?_of_family family]

theorem isDigit_iff_family {first : Char} :
    Radix.decimal.isDigit first = true ↔ familyOf first = .integer := by
  constructor
  · intro digit
    exact familyOf_of_mem_digits ((Number.isDigit_iff .decimal first).mp digit)
  · intro family
    by_contra other
    simp only [familyOf, if_neg other] at family
    grind

theorem isStart_iff_family {first : Char} :
    Word.isStart first = true ↔ familyOf first = .word := by
  constructor
  · intro start
    exact familyOf_of_mem_starts (List.contains_iff_mem.mp start)
  · intro family
    by_contra other
    simp only [familyOf, if_neg other] at family
    grind

theorem read_string (rest : List Char) : read '\x22' rest = StringLiteral.read '\x22' rest :=
  read_of_family (by decide) rest

theorem read_number {first : Char} (digit : first ∈ Radix.decimal.digits) (rest : List Char) :
    read first rest = Number.read first rest := by
  have family := familyOf_of_mem_digits digit
  have notQuote : first ≠ '\x22' := by
    rintro rfl
    exact absurd family (by decide)
  have listed := (Number.isDigit_iff .decimal first).mpr digit
  rw [read_of_family (by rw [family]; decide), if_neg notQuote, if_pos listed]

theorem read_word {first : Char} (start : Word.isStart first = true) (rest : List Char) :
    read first rest = .ok (Word.read first rest) := by
  have family := isStart_iff_family.mp start
  have notQuote : first ≠ '\x22' := by
    rintro rfl
    exact absurd family (by decide)
  have notDigit : ¬ Radix.decimal.isDigit first = true := by
    rw [isDigit_iff_family, family]
    decide
  rw [read_of_family (by rw [family]; decide), if_neg notQuote, if_neg notDigit, if_pos start]

/-- Blanks with the line feed among them, the mark of a comment, and the backslash that joins
lines. None of these characters ever continues a lexeme. -/
def beginsLayout (character : Char) : Bool :=
  Blank.isBlank character || character = '#' || character = '\\'

theorem familyOf_of_beginsLayout {first : Char} (begins : beginsLayout first = true) :
    familyOf first ∈ [.lineFeed, .blank, .comment, .joint] := by
  simp only [beginsLayout, Bool.or_eq_true, decide_eq_true_eq] at begins
  rcases begins with (white | rfl) | rfl
  · unfold familyOf
    split <;> decide
  · decide
  · decide

theorem read_layout {first : Char} (begins : beginsLayout first = true) (rest : List Char) :
    read first rest = .ok (readLayout first rest) := by
  have family := familyOf_of_beginsLayout begins
  have notSingle : familyOf first ≠ .single := by
    intro same
    rw [same] at family
    exact absurd family (by decide)
  have notQuote : first ≠ '\x22' := by
    rintro rfl
    exact absurd begins (by decide)
  have notDigit : ¬ Radix.decimal.isDigit first = true := by
    rw [isDigit_iff_family]
    intro same
    rw [same] at family
    exact absurd family (by decide)
  have notStart : ¬ Word.isStart first = true := by
    rw [isStart_iff_family]
    intro same
    rw [same] at family
    exact absurd family (by decide)
  rw [read_of_family notSingle, if_neg notQuote, if_neg notDigit, if_neg notStart]

/-! ## Numbers -/

/-- The characters of a class at the head of a text are a run in front of another character. -/
theorem takeWhile_of_maximalRun {property : Char → Bool} {run rest : List Char}
    (maximal : MaximalRun (property · = true) run rest) :
    (run ++ rest).takeWhile property = run := by
  rw [List.takeWhile_append_of_pos maximal.1]
  cases rest with
  | nil => rw [List.takeWhile_nil, List.append_nil]
  | cons next after =>
      rw [List.takeWhile_cons_of_neg (maximal.2 next rfl), List.append_nil]

namespace Number

/-- The limits that the digits of an integer literal have to keep. -/
structure Fits (radix : Radix) (digits : List Char) : Prop where
  short : radix = .decimal → digits.length ≤ digitLimit
  small : Numeral.value radix digits ≤ largestInteger

theorem ofDigits_of_small {radix : Radix} {digits : List Char}
    (small : Numeral.value radix digits ≤ largestInteger) (first : Char) (more : List Char) :
    ofDigits radix digits first more =
      .ok ⟨first, more, .token .integer (some (.number (Numeral.value radix digits)))⟩ := by
  unfold ofDigits
  rw [if_pos small]

theorem ofDigits_of_large {radix : Radix} {digits : List Char}
    (large : largestInteger < Numeral.value radix digits) (first : Char) (more : List Char) :
    ofDigits radix digits first more =
      .error ⟨first :: more,
        .fault (.invalidNumber (String.ofList (first :: more)) .outOfRange)⟩ := by
  unfold ofDigits
  rw [if_neg (Nat.not_le.mpr large)]

theorem not_mem_marks_of_digit {character : Char} (digit : character ∈ Radix.decimal.digits)
    (radix : Radix) : character ∉ marks radix := by
  have apart : Radix.decimal.digits.all (· ∉ marks radix) = true := by
    cases radix <;> decide
  exact of_decide_eq_true (List.all_eq_true.mp apart character digit)

theorem readMarked_of_run {radix : Radix} {digits rest : List Char} (nonempty : digits ≠ [])
    (maximal : MaximalRun (· ∈ radix.digits) digits rest) (zero mark : Char) :
    readMarked radix zero mark (digits ++ rest) = ofDigits radix digits zero (mark :: digits) := by
  have run := maximal.congr fun character => (isDigit_iff radix character).symm
  unfold readMarked
  rw [takeWhile_of_maximalRun run]
  exact if_neg (by simpa using nonempty)

theorem readDecimal_of_run {first : Char} {more rest : List Char}
    (maximal : MaximalRun (· ∈ Radix.decimal.digits) (first :: more) rest) :
    readDecimal first (more ++ rest) =
      if (first :: more).length ≤ digitLimit then ofDigits .decimal (first :: more) first more
      else .error ⟨first :: more, .tooManyDigits (first :: more).length⟩ := by
  have run : MaximalRun (Radix.decimal.isDigit · = true) more rest :=
    ⟨fun character member =>
      (isDigit_iff .decimal character).mpr (maximal.1 character (List.mem_cons_of_mem _ member)),
      fun next first holds => maximal.2 next first ((isDigit_iff .decimal next).mp holds)⟩
  unfold readDecimal
  rw [takeWhile_of_maximalRun run]

/-- A zero is read as a decimal digit unless a letter that announces a radix follows it. -/
theorem read_of_unmarked {first : Char} {rest : List Char}
    (unmarked : first = '0' → ∀ mark ∈ rest.head?, ∀ radix, mark ∉ marks radix) :
    Number.read first rest = readDecimal first rest := by
  unfold Number.read
  cases rest with
  | nil => rfl
  | cons mark after =>
      dsimp only
      cases announced : markedRadix? mark with
      | none => rfl
      | some radix =>
          refine if_neg fun zero => ?_
          exact unmarked zero mark rfl radix (markedRadix?_eq_some_iff.mp announced)

theorem read_of_marked {radix : Radix} {mark : Char} (announced : mark ∈ marks radix)
    (rest : List Char) : Number.read '0' (mark :: rest) = readMarked radix '0' mark rest := by
  unfold Number.read
  dsimp only
  rw [markedRadix?_eq_some_iff.mpr announced]
  exact if_pos rfl

/-- What a reader makes of the digits of a literal. Only decimal digits are counted. -/
def convert (radix : Radix) (digits : List Char) (first : Char) (more : List Char) :
    Except Flaw Lexeme :=
  if radix = .decimal ∧ digitLimit < digits.length then
    .error ⟨first :: more, .tooManyDigits digits.length⟩
  else ofDigits radix digits first more

/-- A literal is read up to the end of its digits, whatever their number and value. -/
theorem read_of_written {radix : Radix} {digits more rest : List Char} {first : Char}
    (written : Written rest radix digits (first :: more)) :
    Number.read first (more ++ rest) = convert radix digits first more := by
  unfold convert
  cases written with
  | @marked _ mark _ announced nonempty maximal =>
      have other : ¬ (radix = .decimal ∧ digitLimit < digits.length) := by
        rintro ⟨rfl, _⟩
        cases announced
      rw [List.cons_append, read_of_marked announced, readMarked_of_run nonempty maximal,
        if_neg other]
  | plain _ maximal unmarked =>
      have plain : first = '0' → ∀ mark ∈ (more ++ rest).head?, ∀ radix, mark ∉ marks radix := by
        intro zero mark next
        cases more with
        | nil => exact unmarked (congrArg (· :: []) zero) mark next
        | cons digit more =>
            cases next
            exact not_mem_marks_of_digit (maximal.1 mark (by simp))
      rw [read_of_unmarked plain, readDecimal_of_run maximal]
      by_cases long : digitLimit < (first :: more).length
      · rw [if_neg (Nat.not_le.mpr long), if_pos ⟨rfl, long⟩]
      · rw [if_pos (Nat.not_lt.mp long), if_neg fun both => long both.2]

theorem convert_of_fits {radix : Radix} {digits : List Char} (fits : Fits radix digits)
    (first : Char) (more : List Char) :
    convert radix digits first more =
      .ok ⟨first, more, .token .integer (some (.number (Numeral.value radix digits)))⟩ := by
  unfold convert
  rw [if_neg fun both => Nat.not_le.mpr both.2 (fits.short both.1), ofDigits_of_small fits.small]

theorem fits_of_convert {radix : Radix} {digits more : List Char} {first : Char}
    {lexeme : Lexeme} (converted : convert radix digits first more = .ok lexeme) :
    Fits radix digits := by
  unfold convert at converted
  split at converted
  · cases converted
  · rename_i counted
    refine ⟨fun decimal => Nat.not_lt.mp fun long => counted ⟨decimal, long⟩, ?_⟩
    by_contra large
    rw [ofDigits_of_large (Nat.not_le.mp large)] at converted
    cases converted

end Number

/-! ## Words -/

namespace Word

theorem means_unique {text : List Char} {meant : Content} (means : Means text meant) :
    meant = content text := by
  unfold content
  cases means with
  | @reserved kind listed =>
      have recorded : ∀ entry ∈ Token.Kind.words, Token.Kind.ofWord? entry.1 = some entry.2 := by
        decide
      rw [recorded _ listed]
  | name absent =>
      have unknown : Token.Kind.ofWord? text = none := by
        cases known : Token.Kind.ofWord? text with
        | none => rfl
        | some kind => exact absurd (Token.Kind.mem_of_lookup known) (absent kind)
      rw [unknown]

theorem read_of_isWord {first : Char} {more rest : List Char}
    (word : IsWord (first :: more) rest) :
    isStart first = true ∧
      Word.read first (more ++ rest) = ⟨first, more, content (first :: more)⟩ := by
  obtain ⟨start, others, same, starting, maximal⟩ := word
  obtain ⟨rfl, rfl⟩ := List.cons.inj same
  have run := maximal.congr fun character => (isContinuing_iff character).symm
  refine ⟨(isStart_iff first).mpr starting, ?_⟩
  unfold Word.read
  rw [takeWhile_of_maximalRun run]

end Word

/-! ## Layout -/

theorem readLayout_blank {character : Char} (white : Blank.isBlank character = true)
    (other : character ≠ '\n') (rest : List Char) :
    readLayout character rest = ⟨character, [], .layout⟩ := by
  unfold readLayout
  rw [if_neg other, if_pos white]

theorem throughLineFeed_of_lineFeed {body : List Char} (unbroken : '\n' ∉ body)
    (rest : List Char) : throughLineFeed (body ++ '\n' :: rest) = body ++ ['\n'] := by
  induction body with
  | nil => rfl
  | cons character body ih =>
      have different := List.ne_of_not_mem_cons unbroken
      rw [List.cons_append, throughLineFeed, if_neg (Ne.symm different),
        ih (List.not_mem_of_not_mem_cons unbroken)]
      rfl

theorem throughLineFeed_of_unbroken {body : List Char} (unbroken : '\n' ∉ body) :
    throughLineFeed body = body := by
  induction body with
  | nil => rfl
  | cons character body ih =>
      have different := List.ne_of_not_mem_cons unbroken
      rw [throughLineFeed, if_neg (Ne.symm different),
        ih (List.not_mem_of_not_mem_cons unbroken)]

theorem readLayout_hash (rest : List Char) :
    readLayout '#' rest = ⟨'#', throughLineFeed rest, .layout⟩ := rfl

/-! ## All shapes -/

/-- A text of a shape is read as one lexeme, if the digits of an integer literal keep the limits. -/
theorem read_of_matches {shape : Shape} {first : Char} {more rest : List Char}
    {content : Content} (found : Matches shape (first :: more) rest content)
    (fits : ∀ radix digits, Number.Written rest radix digits (first :: more) →
      Number.Fits radix digits) :
    read first (more ++ rest) = .ok ⟨first, more, content⟩ := by
  generalize whole : first :: more = text at found
  cases found with
  | @pair opening second kind _ listed =>
      obtain ⟨rfl, rfl⟩ := List.cons.inj whole
      have recorded : ∀ entry ∈ Token.Kind.pairs,
          Token.Kind.ofPair? entry.1.1 entry.1.2 = some entry.2 := by decide
      rw [List.singleton_append, read, readPair?, recorded _ listed]
      rfl
  | @single opening kind _ listed apart =>
      obtain ⟨rfl, rfl⟩ := List.cons.inj whole
      have recorded : ∀ entry ∈ Token.Kind.singles,
          Token.Kind.ofSingle? entry.1 = some entry.2 := by decide
      rw [List.nil_append, read, readPair?_eq_none apart, readSingle?, recorded _ listed]
      rfl
  | string enclosed =>
      obtain ⟨rfl, rfl⟩ := List.cons.inj whole
      rw [read_string]
      exact StringLiteral.read_of_enclosed enclosed '\x22' rest
  | integer written =>
      subst whole
      obtain ⟨digit, others, same, listed⟩ := written.exists_digit
      obtain ⟨rfl, rfl⟩ := List.cons.inj same
      rw [read_number listed, Number.read_of_written written,
        Number.convert_of_fits (fits _ _ written)]
  | word word means =>
      subst whole
      obtain ⟨start, read⟩ := Word.read_of_isWord word
      rw [read_word start, read, Word.means_unique means]
  | lineFeed =>
      obtain ⟨rfl, rfl⟩ := List.cons.inj whole
      exact read_layout (by decide) rest
  | blank white other =>
      obtain ⟨rfl, rfl⟩ := List.cons.inj whole
      rw [read_layout (by rw [beginsLayout, white]; rfl), readLayout_blank white other]
  | @comment body _ unbroken =>
      obtain ⟨rfl, rfl⟩ : first = '#' ∧ more = body ++ ['\n'] := List.cons.inj whole
      rw [read_layout (by decide), readLayout_hash, List.append_assoc, List.singleton_append,
        throughLineFeed_of_lineFeed unbroken]
  | @lastComment body unbroken =>
      obtain ⟨rfl, rfl⟩ := List.cons.inj whole
      rw [read_layout (by decide), readLayout_hash, List.append_nil,
        throughLineFeed_of_unbroken unbroken]
  | joint =>
      obtain ⟨rfl, rfl⟩ := List.cons.inj whole
      exact read_layout (by decide) ('\n' :: rest)
  | wideJoint =>
      obtain ⟨rfl, rfl⟩ := List.cons.inj whole
      exact read_layout (by decide) ('\r' :: '\n' :: rest)

end LuneSyntax.Lexeme
