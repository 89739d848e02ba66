import LuneSyntax.Proofs.Lexeme.LongestMatch
import LuneSyntax.Proofs.Lexeme.Recognition

/-!
# Exchanging what follows

A lexeme stays the same when the text behind it is exchanged for one that begins with the same
character or with layout. Only two lexemes look further: a comment without line feed goes up to
the end of the text, and a backslash asks whether a line end follows it.
-/

set_option autoImplicit false

namespace LuneSyntax.Lexeme

/-- A line end that a backslash in front of it would join. -/
def Joins (text : List Char) : Prop :=
  ∃ after, text = '\n' :: after ∨ text = '\r' :: '\n' :: after

/-- A comment without the line feed that would end it. -/
def IsOpenComment (lexeme : Lexeme) : Prop :=
  lexeme.first = '#' ∧ '\n' ∉ lexeme.more

theorem Joins.append {text : List Char} (joins : Joins text) (rest : List Char) :
    Joins (text ++ rest) := by
  obtain ⟨after, rfl | rfl⟩ := joins
  · exact ⟨after ++ rest, .inl rfl⟩
  · exact ⟨after ++ rest, .inr rfl⟩

/-- Two characters decide, and at most one of them comes from each side of a cut inside. -/
theorem Joins.of_append {front back : List Char} (joins : Joins (front ++ back)) :
    Joins front ∨ (front = [] ∧ Joins back) ∨ (front = ['\r'] ∧ '\n' ∈ back.head?) := by
  rcases front with _ | ⟨first, _ | ⟨second, front⟩⟩
  · exact .inr (.inl ⟨rfl, joins⟩)
  · obtain ⟨after, split | split⟩ := joins
    · obtain ⟨rfl, _⟩ := List.cons.inj split
      exact .inl ⟨[], .inl rfl⟩
    · obtain ⟨rfl, rfl⟩ := List.cons.inj split
      exact .inr (.inr ⟨rfl, rfl⟩)
  · obtain ⟨after, split | split⟩ := joins
    · obtain ⟨rfl, _⟩ := List.cons.inj split
      exact .inl ⟨second :: front, .inl rfl⟩
    · obtain ⟨rfl, behind⟩ := List.cons.inj split
      obtain ⟨rfl, _⟩ := List.cons.inj behind
      exact .inl ⟨front, .inr rfl⟩

/-! ## Characters that continue nothing -/

theorem not_beginsLayout_of_mem_digits {radix : Radix} {character : Char}
    (digit : character ∈ radix.digits) : beginsLayout character = false := by
  have apart : radix.digits.all (beginsLayout · = false) = true := by
    cases radix <;> decide
  exact of_decide_eq_true (List.all_eq_true.mp apart character digit)

theorem not_beginsLayout_of_mem_marks {radix : Radix} {character : Char}
    (mark : character ∈ Number.marks radix) : beginsLayout character = false := by
  have apart : (Number.marks radix).all (beginsLayout · = false) = true := by
    cases radix <;> decide
  exact of_decide_eq_true (List.all_eq_true.mp apart character mark)

theorem not_beginsLayout_of_mem_pairs {first second : Char} {kind : Token.Kind}
    (listed : ((first, second), kind) ∈ Token.Kind.pairs) : beginsLayout second = false := by
  have apart : ∀ entry ∈ Token.Kind.pairs, beginsLayout entry.1.2 = false := by decide
  exact apart _ listed

theorem not_beginsLayout_of_mem_singles {first : Char} {kind : Token.Kind}
    (listed : (first, kind) ∈ Token.Kind.singles) : beginsLayout first = false := by
  have apart : ∀ entry ∈ Token.Kind.singles, beginsLayout entry.1 = false := by decide
  exact apart _ listed

theorem not_beginsLayout_of_mem_continuations {character : Char}
    (listed : character ∈ Word.continuations) : beginsLayout character = false := by
  have apart : Word.continuations.all (beginsLayout · = false) = true := by decide +kernel
  exact of_decide_eq_true (List.all_eq_true.mp apart character listed)

theorem not_beginsLayout_of_continuing {character : Char}
    (continuing : character.isAlphanum = true ∨ character = '_') :
    beginsLayout character = false :=
  not_beginsLayout_of_mem_continuations
    (List.contains_iff_mem.mp ((Word.isContinuing_iff character).mpr continuing))

theorem Number.Written.not_beginsLayout {rest : List Char} {radix : Radix}
    {digits text : List Char} (written : Written rest radix digits text) {character : Char}
    (member : character ∈ text) : beginsLayout character = false := by
  cases written with
  | marked announced _ maximal =>
      rcases List.mem_cons.mp member with rfl | behind
      · decide
      · rcases List.mem_cons.mp behind with rfl | digit
        · exact not_beginsLayout_of_mem_marks announced
        · exact not_beginsLayout_of_mem_digits (maximal.1 character digit)
  | plain _ maximal _ => exact not_beginsLayout_of_mem_digits (maximal.1 character member)

theorem Word.IsWord.not_beginsLayout {text rest : List Char} (word : IsWord text rest)
    {character : Char} (member : character ∈ text) : beginsLayout character = false :=
  not_beginsLayout_of_mem_continuations (word.mem_continuations member)

/-! ## Shapes -/

/-- What may follow a text instead of the rest: the same character, a character that begins
layout, or anything if a line feed ends the text. -/
def MayFollow (text rest other : List Char) : Prop :=
  ∀ next ∈ other.head?,
    next ∈ rest.head? ∨ beginsLayout next = true ∨ text.getLast? = some '\n'

section Following

variable {text rest other : List Char}

/-- A text without layout asks only that the next character is no new one that continues it. -/
theorem MayFollow.same_or_layout (follow : MayFollow text rest other)
    (solid : ∀ character ∈ text, beginsLayout character = false) :
    ∀ next ∈ other.head?, next ∈ rest.head? ∨ beginsLayout next = true := by
  intro next member
  rcases follow next member with same | layout | ended
  · exact .inl same
  · exact .inr layout
  · have inside := solid '\n' (List.mem_of_getLast? ended)
    exact absurd inside (by decide)

theorem MaximalRun.exchange {property : Char → Prop} {run : List Char}
    (maximal : MaximalRun property run rest)
    (follow : ∀ next ∈ other.head?, next ∈ rest.head? ∨ beginsLayout next = true)
    (solid : ∀ character, property character → beginsLayout character = false) :
    MaximalRun property run other := by
  refine ⟨maximal.1, fun next member holds => ?_⟩
  rcases follow next member with same | layout
  · exact maximal.2 next same holds
  · rw [solid next holds] at layout
    cases layout

theorem Number.Written.exchange {radix : Radix} {digits : List Char}
    (written : Written rest radix digits text) (follow : MayFollow text rest other) :
    Written other radix digits text := by
  have next := follow.same_or_layout fun _ member => written.not_beginsLayout member
  cases written with
  | marked announced nonempty maximal =>
      exact .marked announced nonempty
        (maximal.exchange next fun _ => not_beginsLayout_of_mem_digits)
  | plain nonempty maximal unmarked =>
      refine .plain nonempty (maximal.exchange next fun _ => not_beginsLayout_of_mem_digits) ?_
      intro zero mark member radix announced
      rcases next mark member with same | layout
      · exact unmarked zero mark same radix announced
      · rw [not_beginsLayout_of_mem_marks announced] at layout
        cases layout

theorem Word.IsWord.exchange (word : IsWord text rest) (follow : MayFollow text rest other) :
    IsWord text other := by
  have next := follow.same_or_layout fun _ member => word.not_beginsLayout member
  obtain ⟨start, more, rfl, starting, maximal⟩ := word
  exact ⟨start, more, rfl, starting,
    maximal.exchange next fun _ => not_beginsLayout_of_continuing⟩

theorem Matches.exchange {shape : Shape} {content : Content}
    (found : Matches shape text rest content) (follow : MayFollow text rest other)
    (comment : rest = [] → ∀ body, text = '#' :: body → '\n' ∉ body → other = []) :
    Matches shape text other content := by
  cases found with
  | pair listed => exact .pair listed
  | @single first _ _ listed apart =>
      have solid : ∀ character ∈ [first], beginsLayout character = false := by
        intro character member
        rw [List.mem_singleton.mp member]
        exact not_beginsLayout_of_mem_singles listed
      refine .single listed ?_
      intro second member joined paired
      rcases follow.same_or_layout solid second member with same | layout
      · exact apart second same joined paired
      · rw [not_beginsLayout_of_mem_pairs paired] at layout
        cases layout
  | string enclosed => exact .string enclosed
  | integer written => exact .integer (written.exchange follow)
  | word word means => exact .word (word.exchange follow) means
  | lineFeed => exact .lineFeed
  | blank white different => exact .blank white different
  | comment unbroken => exact .comment unbroken
  | @lastComment body unbroken =>
      rw [comment rfl body rfl unbroken]
      exact .lastComment unbroken
  | joint => exact .joint
  | wideJoint => exact .wideJoint

end Following

theorem Matches.exists_written {text rest : List Char} {content : Content}
    (found : Matches .integer text rest content) :
    ∃ radix digits, Number.Written rest radix digits text := by
  cases found with
  | integer written => exact ⟨_, _, written⟩

/-! ## Dropped characters -/

theorem Matches.content_ne_dropped {shape : Shape} {text rest : List Char} {content : Content}
    (found : Matches shape text rest content) : content ≠ .dropped := by
  rintro rfl
  cases found with
  | word _ means => cases means

/-- The character is none that the readers of operators, literals and words begin with. -/
structure OpensNothing (first : Char) : Prop where
  notSingle : readSingle? first = none
  notQuote : first ≠ '\x22'
  notDigit : ¬ Radix.decimal.isDigit first = true
  notStart : ¬ Word.isStart first = true

theorem read_of_opensNothing {first : Char} (opens : OpensNothing first) (rest : List Char) :
    read first rest = .ok (readLayout first rest) := by
  have firsts : ∀ entry ∈ Token.Kind.pairs, readSingle? entry.1.1 ≠ none := by decide
  have unpaired : readPair? first rest = none :=
    readPair?_eq_none fun _ _ _ listed => firsts _ listed opens.notSingle
  rw [read, unpaired, opens.notSingle]
  dsimp only
  rw [if_neg opens.notQuote, if_neg opens.notDigit, if_neg opens.notStart]

theorem opensNothing_of_read {first : Char} {rest : List Char}
    (dropped : read first rest = .ok ⟨first, [], .dropped⟩) :
    OpensNothing first ∧ readLayout first rest = ⟨first, [], .dropped⟩ := by
  unfold read at dropped
  split at dropped
  · rename_i pair
    cases dropped
    exact absurd rfl (readPair?_matches pair).content_ne_dropped
  · rename_i unpaired
    split at dropped
    · rename_i single
      cases dropped
      exact absurd rfl (readSingle?_matches unpaired single).content_ne_dropped
    · rename_i unknown
      split at dropped
      · rename_i quote
        subst quote
        exact absurd rfl (StringLiteral.read_matches dropped).content_ne_dropped
      · rename_i notQuote
        split at dropped
        · rename_i digit
          have listed := (Number.isDigit_iff .decimal first).mp digit
          exact absurd rfl (Number.read_matches listed dropped).content_ne_dropped
        · rename_i notDigit
          split at dropped
          · rename_i start
            have same := congrArg Lexeme.content (Except.ok.inj dropped)
            exact absurd same (Word.read_matches rest start).content_ne_dropped
          · rename_i notStart
            exact ⟨⟨unknown, notQuote, notDigit, notStart⟩, Except.ok.inj dropped⟩

theorem readBackslash_of_not_joins {rest : List Char} (apart : ¬ Joins rest) :
    readBackslash '\\' rest = ⟨'\\', [], .dropped⟩ := by
  rcases readBackslash_cases rest with joined | ⟨dropped, _⟩
  · unfold readBackslash
    split
    · exact absurd ⟨_, .inl rfl⟩ apart
    · exact absurd ⟨_, .inr rfl⟩ apart
    · rfl
  · exact dropped

theorem not_joins_of_readBackslash {rest : List Char}
    (dropped : readBackslash '\\' rest = ⟨'\\', [], .dropped⟩) : ¬ Joins rest := by
  rintro ⟨after, rfl | rfl⟩
  · cases dropped
  · cases dropped

theorem readLayout_exchange {first : Char} {rest other : List Char}
    (dropped : readLayout first rest = ⟨first, [], .dropped⟩)
    (joint : first = '\\' → Joins other → Joins rest) :
    readLayout first other = ⟨first, [], .dropped⟩ := by
  unfold readLayout at dropped ⊢
  split at dropped
  · cases dropped
  · rename_i notLineFeed
    rw [if_neg notLineFeed]
    split at dropped
    · cases dropped
    · rename_i notBlank
      rw [if_neg notBlank]
      split at dropped
      · have same : Content.layout = .dropped := congrArg content dropped
        cases same
      · rename_i notHash
        rw [if_neg notHash]
        split at dropped
        · rename_i backslash
          subst backslash
          have apart := not_joins_of_readBackslash dropped
          exact readBackslash_of_not_joins fun joins => apart (joint rfl joins)
        · rename_i notBackslash
          rw [if_neg notBackslash]

/-! ## What is read -/

theorem Number.Written.unique {rest other : List Char} {radix otherRadix : Radix}
    {digits otherDigits text : List Char} (written : Written rest radix digits text)
    (otherWritten : Written other otherRadix otherDigits text) :
    otherRadix = radix ∧ otherDigits = digits := by
  cases written with
  | marked announced _ _ =>
      cases otherWritten with
      | marked otherAnnounced _ _ =>
          have known := markedRadix?_eq_some_iff.mpr announced
          rw [markedRadix?_eq_some_iff.mpr otherAnnounced] at known
          exact ⟨Option.some.inj known, rfl⟩
      | plain _ maximal _ =>
          exact absurd announced (not_mem_marks_of_digit (maximal.1 _ (by simp)) _)
  | plain _ maximal _ =>
      cases otherWritten with
      | marked announced _ _ =>
          exact absurd announced (not_mem_marks_of_digit (maximal.1 _ (by simp)) _)
      | plain _ _ _ => exact ⟨rfl, rfl⟩

theorem fits_of_read {radix : Radix} {digits rest : List Char} {lexeme : Lexeme}
    (written : Number.Written rest radix digits lexeme.text)
    (found : read lexeme.first (lexeme.more ++ rest) = .ok lexeme) :
    Number.Fits radix digits := by
  obtain ⟨digit, more, same, listed⟩ := written.exists_digit
  rw [text] at same written
  obtain ⟨rfl, _⟩ := List.cons.inj same
  rw [read_number listed, Number.read_of_written written] at found
  exact Number.fits_of_convert found

/-- What may come behind lexemes instead of the rest. -/
structure Allows (front : List Lexeme) (rest other : List Char) : Prop where
  next : MayFollow (textOf front) rest other
  comment : rest = [] → ∀ last ∈ front.getLast?, last.IsOpenComment → other = []
  joint : ∀ behind, '\\' :: behind <:+ textOf front →
    Joins (behind ++ other) → Joins (behind ++ rest)

theorem readUnder_exchange {policy : UnknownPolicy} {lexeme : Lexeme} {rest other : List Char}
    (found : readUnder policy lexeme.first (lexeme.more ++ rest) = .ok lexeme)
    (allows : Allows [lexeme] rest other) :
    readUnder policy lexeme.first (lexeme.more ++ other) = .ok lexeme := by
  obtain ⟨next, comment, joint⟩ := allows
  rw [textOf_cons, textOf_nil, List.append_nil] at next joint
  obtain ⟨readable, admitted⟩ := read_of_readUnder found
  have exchanged : read lexeme.first (lexeme.more ++ other) = .ok lexeme := by
    rcases read_matches readable with ⟨shape, fits⟩ | ⟨dropped, _⟩
    · rw [List.drop_left] at fits
      have otherFits : Matches shape lexeme.text other lexeme.content := by
        refine fits.exchange next fun nothing body same unbroken => ?_
        obtain ⟨hash, rfl⟩ := List.cons.inj same
        exact comment nothing lexeme rfl ⟨hash, unbroken⟩
      refine read_of_matches otherFits fun radix digits written => ?_
      have integer : Shape.integer = shape := otherFits.unique (.integer written)
      subst integer
      obtain ⟨_, _, restWritten⟩ := fits.exists_written
      obtain ⟨rfl, rfl⟩ := restWritten.unique written
      exact fits_of_read restWritten readable
    · obtain ⟨first, more, content⟩ := lexeme
      obtain ⟨_, rfl, rfl⟩ := Lexeme.mk.inj dropped
      obtain ⟨opens, layout⟩ := opensNothing_of_read readable
      rw [read_of_opensNothing opens]
      refine congrArg Except.ok (readLayout_exchange layout fun backslash => ?_)
      subst backslash
      exact joint [] (List.suffix_refl _)
  unfold readUnder
  rw [exchanged]
  exact if_pos admitted

end LuneSyntax.Lexeme
