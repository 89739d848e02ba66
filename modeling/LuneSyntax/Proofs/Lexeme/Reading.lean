import LuneSyntax.Proofs.Lexeme.Shape

/-!
# What is read

The lexeme that is read at the head of a text has one of the shapes in front of what it leaves,
and a character is dropped only where no shape fits.
-/

set_option autoImplicit false

namespace LuneSyntax.Lexeme

/-! ## Operators -/

theorem readPair?_matches {first : Char} {rest : List Char} {lexeme : Lexeme}
    (found : readPair? first rest = some lexeme) :
    Matches .pair lexeme.text (rest.drop lexeme.more.length) lexeme.content := by
  cases rest with
  | nil => cases found
  | cons second after =>
      obtain ⟨kind, known, rfl⟩ := Option.map_eq_some_iff.mp found
      exact .pair (Token.Kind.mem_of_lookup known)

theorem not_mem_pairs {first : Char} {rest : List Char} (unpaired : readPair? first rest = none) :
    ∀ second ∈ rest.head?, ∀ joined, ((first, second), joined) ∉ Token.Kind.pairs := by
  intro second next joined listed
  cases rest with
  | nil => cases next
  | cons other after =>
      cases next
      have absent := List.lookup_eq_none_iff.mp (Option.map_eq_none_iff.mp unpaired)
      simpa using absent _ listed

theorem not_mem_singles {first : Char} (unknown : readSingle? first = none) (kind : Token.Kind) :
    (first, kind) ∉ Token.Kind.singles := by
  intro listed
  have absent := List.lookup_eq_none_iff.mp (Option.map_eq_none_iff.mp unknown)
  simpa using absent _ listed

theorem readSingle?_matches {first : Char} {rest : List Char} {lexeme : Lexeme}
    (unpaired : readPair? first rest = none) (found : readSingle? first = some lexeme) :
    Matches .single lexeme.text (rest.drop lexeme.more.length) lexeme.content := by
  obtain ⟨kind, known, rfl⟩ := Option.map_eq_some_iff.mp found
  exact .single (Token.Kind.mem_of_lookup known) (not_mem_pairs unpaired)

/-! ## Literals -/

theorem StringLiteral.read_matches {rest : List Char} {lexeme : Lexeme}
    (found : StringLiteral.read '\x22' rest = .ok lexeme) :
    Matches .string lexeme.text (rest.drop lexeme.more.length) lexeme.content := by
  obtain ⟨body, enclosed, spelled, denotes⟩ := read_enclosed found
  rw [spelled, denotes]
  exact .string enclosed

theorem Number.isDigit_iff (radix : Radix) (character : Char) :
    radix.isDigit character = true ↔ character ∈ radix.digits :=
  List.contains_iff_mem

theorem Number.ofDigits_content {radix : Radix} {digits more : List Char} {first : Char}
    {lexeme : Lexeme} (found : ofDigits radix digits first more = .ok lexeme) :
    lexeme.content = .token .integer (some (.number (Numeral.value radix digits))) := by
  unfold ofDigits at found
  dsimp only at found
  split at found
  · cases found
    rfl
  · cases found

theorem Number.readMarked_matches {radix : Radix} {mark : Char} {rest : List Char}
    {lexeme : Lexeme} (announced : mark ∈ marks radix)
    (found : readMarked radix '0' mark rest = .ok lexeme) :
    Matches .integer lexeme.text ((mark :: rest).drop lexeme.more.length) lexeme.content := by
  unfold readMarked at found
  dsimp only at found
  split at found
  · cases found
  · rename_i nonempty
    obtain ⟨first_eq, more_eq⟩ := ofDigits_ok found
    rw [ofDigits_content found, text, first_eq, more_eq]
    have run := (maximalRun_takeWhile radix.isDigit rest).congr (isDigit_iff radix)
    exact .integer (.marked announced (by simpa using nonempty) run)

/-- A digit and those behind it are written, unless the digit begins a radix mark. -/
theorem Number.written_takeWhile {first : Char} {rest : List Char}
    (digit : first ∈ Radix.decimal.digits)
    (unmarked : first = '0' → ∀ mark ∈ rest.head?, ∀ radix, mark ∉ marks radix) :
    Written (rest.drop (rest.takeWhile Radix.decimal.isDigit).length) .decimal
      (first :: rest.takeWhile Radix.decimal.isDigit)
      (first :: rest.takeWhile Radix.decimal.isDigit) := by
  have run := (maximalRun_takeWhile Radix.decimal.isDigit rest).congr (isDigit_iff .decimal)
  refine .plain (List.cons_ne_nil _ _) ⟨?_, run.2⟩ ?_
  · intro character member
    rcases List.mem_cons.mp member with rfl | later
    · exact digit
    · exact run.1 character later
  · intro alone
    obtain ⟨zero, nothing⟩ := List.cons.inj alone
    rw [nothing]
    exact unmarked zero

theorem Number.readDecimal_matches {first : Char} {rest : List Char} {lexeme : Lexeme}
    (digit : first ∈ Radix.decimal.digits)
    (unmarked : first = '0' → ∀ mark ∈ rest.head?, ∀ radix, mark ∉ marks radix)
    (found : readDecimal first rest = .ok lexeme) :
    Matches .integer lexeme.text (rest.drop lexeme.more.length) lexeme.content := by
  unfold readDecimal at found
  dsimp only at found
  split at found
  · obtain ⟨first_eq, more_eq⟩ := ofDigits_ok found
    rw [ofDigits_content found, text, first_eq, more_eq]
    exact .integer (written_takeWhile digit unmarked)
  · cases found

theorem Number.read_matches {first : Char} {rest : List Char} {lexeme : Lexeme}
    (digit : first ∈ Radix.decimal.digits) (found : Number.read first rest = .ok lexeme) :
    Matches .integer lexeme.text (rest.drop lexeme.more.length) lexeme.content := by
  cases rest with
  | nil => exact readDecimal_matches digit (fun _ mark next => by cases next) found
  | cons mark after =>
      unfold Number.read at found
      dsimp only at found
      cases announced : markedRadix? mark with
      | none =>
          rw [announced] at found
          refine readDecimal_matches digit ?_ found
          rintro _ other next radix marked
          cases next
          rw [markedRadix?_eq_some_iff.mpr marked] at announced
          cases announced
      | some radix =>
          rw [announced] at found
          dsimp only at found
          split at found
          · rename_i zero
            subst zero
            exact readMarked_matches (markedRadix?_eq_some_iff.mp announced) found
          · rename_i notZero
            exact readDecimal_matches digit (fun zero => absurd zero notZero) found

/-! ## Words -/

theorem Word.read_matches {first : Char} (rest : List Char) (starting : isStart first = true) :
    Matches .word (Word.read first rest).text (rest.drop (Word.read first rest).more.length)
      (Word.read first rest).content := by
  have word : IsWord (Word.read first rest).text
      (rest.drop (Word.read first rest).more.length) :=
    ⟨first, _, rfl, (isStart_iff first).mp starting,
      (maximalRun_takeWhile isContinuing rest).congr isContinuing_iff⟩
  exact .word word (content_means _)

/-! ## Layout -/

theorem throughLineFeed_cases (text : List Char) :
    ∃ body, '\n' ∉ body ∧
      (throughLineFeed text = body ++ ['\n'] ∨ throughLineFeed text = body ∧ text = body) := by
  induction text with
  | nil => exact ⟨[], List.not_mem_nil, .inr ⟨rfl, rfl⟩⟩
  | cons character rest ih =>
      unfold throughLineFeed
      split
      · rename_i lineFeed
        subst lineFeed
        exact ⟨[], List.not_mem_nil, .inl rfl⟩
      · rename_i other
        obtain ⟨body, unbroken, through⟩ := ih
        refine ⟨character :: body, ?_, ?_⟩
        · intro member
          rcases List.mem_cons.mp member with same | inside
          · exact other same.symm
          · exact unbroken inside
        · rcases through with closed | ⟨unclosed, whole⟩
          · exact .inl (by rw [closed]; rfl)
          · exact .inr (by rw [unclosed, whole]; exact ⟨rfl, rfl⟩)

theorem throughLineFeed_matches (rest : List Char) :
    Matches .comment ('#' :: throughLineFeed rest) (rest.drop (throughLineFeed rest).length)
      .layout := by
  obtain ⟨body, unbroken, closed | ⟨unclosed, whole⟩⟩ := throughLineFeed_cases rest
  · rw [closed]
    exact .comment unbroken
  · rw [unclosed, whole, List.drop_length]
    exact .lastComment unbroken

theorem readBackslash_cases (rest : List Char) :
    Matches .joint (readBackslash '\\' rest).text (rest.drop (readBackslash '\\' rest).more.length)
        (readBackslash '\\' rest).content ∨
      readBackslash '\\' rest = ⟨'\\', [], .dropped⟩ ∧
        ∀ after, rest ≠ '\n' :: after ∧ rest ≠ '\r' :: '\n' :: after := by
  unfold readBackslash
  split
  · exact .inl .joint
  · exact .inl .wideJoint
  · rename_i notLineFeed notReturn
    exact .inr ⟨rfl, fun after => ⟨notLineFeed after, notReturn after⟩⟩

theorem readLayout_cases (first : Char) (rest : List Char) :
    (∃ shape, Matches shape (readLayout first rest).text
        (rest.drop (readLayout first rest).more.length) (readLayout first rest).content) ∨
      readLayout first rest = ⟨first, [], .dropped⟩ ∧ first ≠ '\n' ∧
        Blank.isBlank first = false ∧ first ≠ '#' ∧ (first = '\\' →
          ∀ after, rest ≠ '\n' :: after ∧ rest ≠ '\r' :: '\n' :: after) := by
  unfold readLayout
  split
  · rename_i lineFeed
    subst lineFeed
    exact .inl ⟨.lineFeed, .lineFeed⟩
  · rename_i notLineFeed
    split
    · rename_i white
      exact .inl ⟨.blank, .blank white notLineFeed⟩
    · rename_i notBlank
      have solid := Bool.eq_false_iff.mpr notBlank
      split
      · rename_i hash
        subst hash
        exact .inl ⟨.comment, throughLineFeed_matches rest⟩
      · rename_i notHash
        split
        · rename_i backslash
          subst backslash
          rcases readBackslash_cases rest with joined | ⟨dropped, apart⟩
          · exact .inl ⟨.joint, joined⟩
          · exact .inr ⟨dropped, notLineFeed, solid, notHash, fun _ => apart⟩
        · rename_i notBackslash
          exact .inr ⟨rfl, notLineFeed, solid, notHash, fun same => absurd same notBackslash⟩

/-- A character begins nothing if it is neither the first of an operator, a literal or a word,
nor layout, and joins no lines. -/
theorem beginsNothing {first : Char} {rest : List Char} (unpaired : readPair? first rest = none)
    (unknown : readSingle? first = none) (notQuote : first ≠ '\x22')
    (notDigit : Radix.decimal.isDigit first = false) (notStart : Word.isStart first = false)
    (notLineFeed : first ≠ '\n') (notBlank : Blank.isBlank first = false)
    (notHash : first ≠ '#')
    (notJoined : first = '\\' →
      ∀ after, rest ≠ '\n' :: after ∧ rest ≠ '\r' :: '\n' :: after) :
    BeginsNothing (first :: rest) := by
  intro shape front back content split found
  cases found with
  | pair listed =>
      obtain ⟨rfl, rfl⟩ := List.cons.inj split
      exact not_mem_pairs unpaired _ rfl _ listed
  | single listed _ =>
      obtain ⟨rfl, _⟩ := List.cons.inj split
      exact not_mem_singles unknown _ listed
  | string _ => exact notQuote (List.cons.inj split).1
  | integer written =>
      obtain ⟨digit, more, rfl, listed⟩ := written.exists_digit
      obtain ⟨rfl, _⟩ := List.cons.inj split
      rw [(Number.isDigit_iff .decimal first).mpr listed] at notDigit
      cases notDigit
  | word word _ =>
      obtain ⟨start, more, rfl, listed⟩ := word.exists_start
      obtain ⟨rfl, _⟩ := List.cons.inj split
      exact absurd (List.contains_iff_mem.mpr listed) (Bool.eq_false_iff.mp notStart)
  | lineFeed => exact notLineFeed (List.cons.inj split).1
  | blank white _ =>
      obtain ⟨rfl, _⟩ := List.cons.inj split
      rw [white] at notBlank
      cases notBlank
  | comment _ => exact notHash (List.cons.inj split).1
  | lastComment _ => exact notHash (List.cons.inj split).1
  | joint =>
      obtain ⟨same, joined⟩ := List.cons.inj split
      exact (notJoined same back).1 joined
  | wideJoint =>
      obtain ⟨same, joined⟩ := List.cons.inj split
      exact (notJoined same back).2 joined

/-- What is read has a shape, or it is one character that begins nothing. -/
theorem read_matches {first : Char} {rest : List Char} {lexeme : Lexeme}
    (found : read first rest = .ok lexeme) :
    (∃ shape, Matches shape lexeme.text (rest.drop lexeme.more.length) lexeme.content) ∨
      lexeme = ⟨first, [], .dropped⟩ ∧ BeginsNothing (first :: rest) := by
  unfold read at found
  cases paired : readPair? first rest with
  | some pair =>
      rw [paired] at found
      cases found
      exact .inl ⟨.pair, readPair?_matches paired⟩
  | none =>
      cases alone : readSingle? first with
      | some single =>
          rw [paired, alone] at found
          cases found
          exact .inl ⟨.single, readSingle?_matches paired alone⟩
      | none =>
          rw [paired, alone] at found
          dsimp only at found
          split at found
          · rename_i quote
            subst quote
            exact .inl ⟨.string, StringLiteral.read_matches found⟩
          · rename_i notQuote
            split at found
            · rename_i digit
              exact .inl ⟨.integer,
                Number.read_matches ((Number.isDigit_iff .decimal first).mp digit) found⟩
            · rename_i notDigit
              split at found
              · rename_i start
                cases found
                exact .inl ⟨.word, Word.read_matches rest start⟩
              · rename_i notStart
                cases found
                rcases readLayout_cases first rest with
                  layout | ⟨dropped, notLineFeed, notBlank, notHash, notJoined⟩
                · exact .inl layout
                · exact .inr ⟨dropped, beginsNothing paired alone notQuote
                    (Bool.eq_false_iff.mpr notDigit) (Bool.eq_false_iff.mpr notStart)
                    notLineFeed notBlank notHash notJoined⟩

end LuneSyntax.Lexeme
