import LuneSyntax.Proofs.Lexeme.Emission
import LuneSyntax.Proofs.Lexeme.Spelling

/-!
# Values of string literals

A string literal goes up to the first quote behind an even number of backslashes, and its value is
the text in between with the escapes decoded. In whatever way a text is spelled between quotes, it
is read back.
-/

set_option autoImplicit false

namespace LuneSyntax

namespace Lexeme.StringLiteral

/-- The quote at a position ends a literal that was opened at an earlier one. Only backslashes
inside the literal count. -/
structure EndsAt (source : List Char) (opening closing : Nat) : Prop where
  behind : opening < closing
  quote : source[closing]? = some '\x22'
  closes : Closes ((source.take closing).drop (opening + 1))

/-- The character that a backslash with a mark behind it stands for. -/
inductive StandsFor : Char → Char → Prop where
  | lineFeed : StandsFor 'n' '\n'
  | tab : StandsFor 't' '\t'
  | carriageReturn : StandsFor 'r' '\r'
  | backslash : StandsFor '\\' '\\'
  | quote : StandsFor '\x22' '\x22'

/-- What the inside of a literal denotes, from left to right. A backslash with one of the five
marks behind it becomes the character that they stand for, and every other character is copied. -/
inductive Denotes : List Char → List Char → Prop where
  | nil : Denotes [] []
  | escape {mark character : Char} {body value : List Char} : StandsFor mark character →
      Denotes body value → Denotes ('\\' :: mark :: body) (character :: value)
  | copied {character : Char} {body value : List Char} :
      (character = '\\' → ∀ mark ∈ body.head?, ∀ meant, ¬ StandsFor mark meant) →
      Denotes body value → Denotes (character :: body) (character :: value)

/-- A text is written between quotes: backslashes and quotes as escapes, line feeds, tabs and
carriage returns as escapes or as they are, and all other characters as they are. -/
inductive Spells : List Char → List Char → Prop where
  | nil : Spells [] []
  | escaped {mark character : Char} {text spelling : List Char} : StandsFor mark character →
      Spells text spelling → Spells (character :: text) ('\\' :: mark :: spelling)
  | plain {character : Char} {text spelling : List Char} : character ≠ '\\' →
      character ≠ '\x22' → Spells text spelling →
      Spells (character :: text) (character :: spelling)

/-! ## The closing quote -/

section Closing

variable {source rest : List Char} {opening closing : Nat}

theorem drop_opening (here : source.drop opening = '\x22' :: rest) :
    source.drop (opening + 1) = rest := by
  rw [← List.drop_drop, here]
  rfl

theorem drop_take_opening {front back : List Char}
    (here : source.drop opening = '\x22' :: (front ++ back)) :
    (source.take (opening + 1 + front.length)).drop (opening + 1) = front := by
  rw [List.drop_take, Nat.add_sub_cancel_left, drop_opening here, List.take_left]

/-- The quotes that end a literal are those behind a text that leaves no backslash unpaired. -/
theorem endsAt_iff (here : source.drop opening = '\x22' :: rest) :
    EndsAt source opening closing ↔
      ∃ front back, rest = front ++ '\x22' :: back ∧ closing = opening + 1 + front.length ∧
        Closes front := by
  constructor
  · rintro ⟨behind, quote, closes⟩
    obtain ⟨length, rfl⟩ := Nat.exists_eq_add_of_le behind
    rw [← List.getElem?_drop, Nat.succ_eq_add_one, drop_opening here] at quote
    obtain ⟨inside, found⟩ := List.getElem?_eq_some_iff.mp quote
    have split : rest = rest.take length ++ '\x22' :: rest.drop (length + 1) := by
      rw [← found, ← List.drop_eq_getElem_cons inside, List.take_append_drop]
    have size : (rest.take length).length = length := List.length_take_of_le inside.le
    rw [split] at here
    have between := drop_take_opening here
    rw [size] at between
    rw [Nat.succ_eq_add_one, between] at closes
    exact ⟨_, _, split, by rw [size], closes⟩
  · rintro ⟨front, back, rfl, rfl, closes⟩
    refine ⟨by omega, ?_, ?_⟩
    · rw [← List.getElem?_drop, drop_opening here]
      simp
    · rwa [drop_take_opening here]

/-- The first quote that ends a literal closes its inside. -/
theorem Enclosed.isLeast {body back : List Char} (enclosed : Enclosed body)
    (here : source.drop opening = '\x22' :: (body ++ '\x22' :: back)) :
    IsLeast {closing | EndsAt source opening closing} (opening + 1 + body.length) := by
  constructor
  · exact (endsAt_iff here).mpr ⟨body, back, rfl, rfl, enclosed.1⟩
  · intro other ends
    obtain ⟨front, behind, split, rfl, closes⟩ := (endsAt_iff here).mp ends
    rcases List.append_eq_append_iff.mp split with ⟨more, rfl, _⟩ | ⟨more, rfl, rest⟩
    · rw [List.length_append]
      omega
    · cases more with
      | nil => rw [List.append_nil]
      | cons first more =>
          obtain ⟨rfl, _⟩ := List.cons.inj rest
          exact absurd closes (enclosed.2 front more rfl)

end Closing

/-! ## Escapes -/

/-- The escapes that are read are the five, each with its character. -/
theorem standsFor_iff {mark character : Char} :
    StandsFor mark character ↔
      ∃ escape, Escape.ofMark? mark = some escape ∧ escape.meaning = character := by
  constructor
  · intro stands
    cases stands with
    | lineFeed => exact ⟨.newline, rfl, rfl⟩
    | tab => exact ⟨.tab, rfl, rfl⟩
    | carriageReturn => exact ⟨.carriageReturn, rfl, rfl⟩
    | backslash => exact ⟨.backslash, rfl, rfl⟩
    | quote => exact ⟨.quote, rfl, rfl⟩
  · intro found
    obtain ⟨escape, known, rfl⟩ := found
    rw [← Escape.mark_of_ofMark? known]
    cases escape with
    | newline => exact .lineFeed
    | tab => exact .tab
    | carriageReturn => exact .carriageReturn
    | backslash => exact .backslash
    | quote => exact .quote

theorem not_standsFor {mark : Char} (unknown : Escape.ofMark? mark = none) (meant : Char) :
    ¬ StandsFor mark meant := by
  intro stands
  obtain ⟨escape, known, _⟩ := standsFor_iff.mp stands
  rw [unknown] at known
  cases known

theorem denotes_decode (body : List Char) : Denotes body (decode body) := by
  fun_induction decode body with
  | case1 => exact .nil
  | case2 mark rest escape known ih => exact .escape (standsFor_iff.mpr ⟨escape, known, rfl⟩) ih
  | case3 mark rest unknown ih =>
      refine .copied ?_ ih
      intro _ other first
      cases first
      exact not_standsFor unknown
  | case4 character rest notEscape ih =>
      refine .copied ?_ ih
      intro backslash mark first
      obtain ⟨after, rfl⟩ : ∃ after, rest = mark :: after := List.head?_eq_some_iff.mp first
      exact absurd rfl (notEscape mark after backslash)

theorem Denotes.eq_decode {body value : List Char} (denotes : Denotes body value) :
    value = decode body := by
  induction denotes with
  | nil => rfl
  | escape stands _ ih =>
      obtain ⟨escape, known, rfl⟩ := standsFor_iff.mp stands
      rw [decode, known, ih]
  | @copied character body value alone _ ih =>
      by_cases backslash : character = '\\'
      · subst backslash
        cases body with
        | nil =>
            rw [ih]
            rfl
        | cons mark rest =>
            have unknown : Escape.ofMark? mark = none := by
              rw [Option.eq_none_iff_forall_ne_some]
              intro escape known
              exact alone rfl mark rfl _ (standsFor_iff.mpr ⟨escape, known, rfl⟩)
            rw [decode, unknown, ih]
      · rw [decode_cons backslash, ih]

/-- The inside of a literal denotes what is decoded and nothing else. -/
theorem denotes_iff {body value : List Char} : Denotes body value ↔ value = decode body := by
  constructor
  · exact Denotes.eq_decode
  · intro same
    rw [same]
    exact denotes_decode body

/-! ## Spellings -/

/-- The pieces of a spelling are read as they are written, and mean what is spelled. -/
theorem Spells.exists_pieces {text spelled : List Char} (spells : Spells text spelled) :
    ∃ pieces : List Piece, (∀ piece ∈ pieces, piece.Certain) ∧ spelling pieces = spelled ∧
      meaning pieces = text := by
  induction spells with
  | nil => exact ⟨[], List.forall_mem_nil _, rfl, rfl⟩
  | escaped stands _ ih =>
      obtain ⟨escape, known, rfl⟩ := standsFor_iff.mp stands
      obtain ⟨pieces, certain, rfl, rfl⟩ := ih
      rw [← Escape.mark_of_ofMark? known]
      exact ⟨.escaped escape :: pieces, List.forall_mem_cons.mpr ⟨.escaped escape, certain⟩,
        rfl, rfl⟩
  | plain notBackslash notQuote _ ih =>
      obtain ⟨pieces, certain, rfl, rfl⟩ := ih
      exact ⟨.plain _ :: pieces,
        List.forall_mem_cons.mpr ⟨.plain notQuote notBackslash, certain⟩, rfl, rfl⟩

/-- A spelling is the inside of a literal, and decoding it gives the text back. -/
theorem Spells.enclosed {text spelled : List Char} (spells : Spells text spelled) :
    Enclosed spelled ∧ decode spelled = text := by
  obtain ⟨pieces, certain, rfl, rfl⟩ := spells.exists_pieces
  obtain ⟨enclosed, denotes⟩ := pieces?_enclosed (pieces?_spelling certain [])
  exact ⟨enclosed, denotes.symm⟩

end Lexeme.StringLiteral

/-! ## Scans -/

section Scans

open Lexeme.StringLiteral

variable {policy : UnknownPolicy} {source rest : List Char} {opening : Nat}

/-- The lexeme of a string literal with the given inside. -/
def Lexeme.quoted (body : List Char) : Lexeme :=
  ⟨'\x22', body ++ ['\x22'], .token .string (some (.text (String.ofList (decode body))))⟩

@[simp]
theorem Lexeme.text_quoted (body : List Char) :
    (quoted body).text = '\x22' :: (body ++ ['\x22']) := rfl

theorem Lexeme.readUnder_quoted {body : List Char} (enclosed : Enclosed body) :
    readUnder policy (quoted body).first ((quoted body).more ++ rest) = .ok (quoted body) := by
  have first : (quoted body).first = '\x22' := rfl
  have more : (quoted body).more = body ++ ['\x22'] := rfl
  rw [readUnder, first, read_string, more, read_of_enclosed enclosed]
  exact if_pos (by simp [admittedBy])

/-- A literal that is closed is emitted with its decoded inside. -/
theorem Boundary.emits_string (boundary : Boundary policy source opening)
    {body : List Char} (here : source.drop opening = '\x22' :: (body ++ '\x22' :: rest))
    (enclosed : Enclosed body) :
    Emits policy source opening (opening + 1 + body.length + 1) .string
      (.text (String.ofList (decode body))) := by
  have whole : source.drop opening = (Lexeme.quoted body).text ++ rest := by
    rw [here]
    simp
  have emitted := boundary.emits (Lexeme.quoted body) whole (Lexeme.readUnder_quoted enclosed) rfl
  simpa [Nat.add_assoc, Nat.add_comm 1] using emitted

theorem Boundary.scan_openString (boundary : Boundary policy source opening)
    (here : source.drop opening = '\x22' :: rest) (unclosed : pieces? rest = none) :
    scan policy source =
      .error ⟨.fault .unterminatedString, opening, lineAt source opening⟩ := by
  have failed : Lexeme.readUnder policy '\x22' rest =
      .error ⟨'\x22' :: rest, .fault .unterminatedString⟩ := by
    rw [Lexeme.readUnder, Lexeme.read_string, Lexeme.StringLiteral.read, unclosed]
  rw [boundary.scan_error here failed, boundary.place]

/-- A quote at a boundary opens a literal that is closed by the first quote that can close it, or
else none can. -/
theorem Boundary.string_cases (boundary : Boundary policy source opening)
    (quote : source[opening]? = some '\x22') :
    (∃ closing value, IsLeast {closing | EndsAt source opening closing} closing ∧
      (∀ denoted, Denotes ((source.take closing).drop (opening + 1)) denoted ↔ denoted = value) ∧
      Emits policy source opening (closing + 1) .string (.text (String.ofList value))) ∨
    (∀ closing, ¬ EndsAt source opening closing) ∧ scan policy source =
      .error ⟨.fault .unterminatedString, opening, lineAt source opening⟩ := by
  obtain ⟨inside, found⟩ := List.getElem?_eq_some_iff.mp quote
  have here : source.drop opening = '\x22' :: source.drop (opening + 1) := by
    rw [← found, ← List.drop_eq_getElem_cons inside]
  generalize source.drop (opening + 1) = rest at here
  cases result : pieces? rest with
  | none =>
      refine .inr ⟨fun closing ends => ?_, boundary.scan_openString here result⟩
      obtain ⟨front, back, split, _, closes⟩ := (endsAt_iff here).mp ends
      exact not_closes_of_pieces?_eq_none result front back split closes
  | some pieces =>
      obtain ⟨behind, rfl⟩ := Lexeme.StringLiteral.spelling_prefix result
      obtain ⟨enclosed, _⟩ := pieces?_enclosed result
      rw [List.append_assoc, List.singleton_append] at here
      refine .inl ⟨opening + 1 + (spelling pieces).length, decode (spelling pieces),
        enclosed.isLeast here, ?_, boundary.emits_string here enclosed⟩
      rw [drop_take_opening here]
      exact fun _ => denotes_iff

/-- At every boundary with a quote a string literal begins. It ends at the first quote behind it in
front of which the literal has an even number of backslashes, and it becomes one token whose value
is what its inside denotes. If there is no such quote, the scan fails there. Every spelling of a
text between quotes is scanned to that text. -/
theorem string_value (policy : UnknownPolicy) :
    (∀ source opening, Boundary policy source opening → source[opening]? = some '\x22' →
      ((∃ closing, EndsAt source opening closing) →
        ∃ closing value, IsLeast {closing | EndsAt source opening closing} closing ∧
          (∀ denoted, Denotes ((source.take closing).drop (opening + 1)) denoted ↔
            denoted = value) ∧
          Emits policy source opening (closing + 1) .string (.text (String.ofList value))) ∧
      ((∀ closing, ¬ EndsAt source opening closing) →
        scan policy source =
          .error ⟨.fault .unterminatedString, opening, lineAt source opening⟩)) ∧
    ∀ text spelled, Spells text spelled →
      ∃ stream, scan policy ('\x22' :: (spelled ++ ['\x22'])) = .ok stream ∧
        stream.toList =
          [⟨.string, some (.text (String.ofList text)), 0, (spelled.length + 2 : Nat), 1⟩,
            ⟨.endOfInput, none, (spelled.length + 2 : Nat), (spelled.length + 2 : Nat),
              1 + spelled.count '\n'⟩] := by
  constructor
  · intro source opening boundary quote
    rcases boundary.string_cases quote with
      ⟨closing, value, least, denotes, emitted⟩ | ⟨never, failed⟩
    · refine ⟨fun _ => ⟨closing, value, least, denotes, emitted⟩, fun never => ?_⟩
      exact absurd least.1 (never closing)
    · refine ⟨?_, fun _ => failed⟩
      rintro ⟨closing, ends⟩
      exact absurd ends (never closing)
  · intro text spelled spells
    obtain ⟨enclosed, rfl⟩ := spells.enclosed
    have read : Lexeme.readUnder policy (Lexeme.quoted spelled).first
        ((Lexeme.quoted spelled).more ++ []) = .ok (Lexeme.quoted spelled) :=
      Lexeme.readUnder_quoted enclosed
    rw [List.append_nil] at read
    obtain ⟨stream, scanned, listed⟩ := Lexeme.scan_alone (Lexeme.quoted spelled) read rfl
    have size : (Lexeme.quoted spelled).text.length = spelled.length + 2 := by simp
    have lines : (Lexeme.quoted spelled).text.count '\n' = spelled.count '\n' := by simp
    rw [size, lines] at listed
    exact ⟨stream, scanned, listed⟩

/-- A literal with all five escapes and a backslash that is copied, a quote that is escaped and
nothing behind it, and a text that is spelled with three escapes and a line feed. -/
theorem string_value_escapes :
    let source := ['x', '\x22', '\\', 'n', '\\', 't', '\\', 'r', '\\', '\\', '\\', '\x22',
      '\\', 'x', '\x22']
    let unclosed := ['\x22', '\\', '\x22']
    (Boundary .skip source 1 ∧ source[1]? = some '\x22' ∧ EndsAt source 1 14 ∧
      Denotes ((source.take 14).drop 2) ['\n', '\t', '\r', '\\', '\x22', '\\', 'x'] ∧
      ∃ closing value, IsLeast {closing | EndsAt source 1 closing} closing ∧
        (∀ denoted, Denotes ((source.take closing).drop 2) denoted ↔ denoted = value) ∧
        Emits .skip source 1 (closing + 1) .string (.text (String.ofList value))) ∧
    (Boundary .skip unclosed 0 ∧ unclosed[0]? = some '\x22' ∧
      (∀ closing, ¬ EndsAt unclosed 0 closing) ∧
      scan .skip unclosed = .error ⟨.fault .unterminatedString, 0, lineAt unclosed 0⟩) ∧
    Spells ['\n', '\t', '\r', '\n'] ['\\', 'n', '\\', 't', '\\', 'r', '\n'] ∧
      ∃ stream, scan .skip ['\x22', '\\', 'n', '\\', 't', '\\', 'r', '\n', '\x22'] = .ok stream ∧
        stream.toList =
          [⟨.string, some (.text "\n\t\r\n"), 0, 9, 1⟩, ⟨.endOfInput, none, 9, 9, 2⟩] := by
  intro source unclosed
  have boundary : Boundary .skip source 1 :=
    ⟨[⟨'x', [], .token .identifier (some (.text "x"))⟩],
      ⟨[Lexeme.quoted ((source.take 14).drop 2)], by cbv⟩, rfl⟩
  have ends : EndsAt source 1 14 := ⟨by decide, rfl, 0, rfl⟩
  have start : Boundary .skip unclosed 0 := ⟨[], List.nil_prefix, rfl⟩
  have never : ∀ closing, ¬ EndsAt unclosed 0 closing := by
    have here : unclosed.drop 0 = '\x22' :: ['\\', '\x22'] := rfl
    have unended : pieces? ['\\', '\x22'] = none := rfl
    intro closing ends
    obtain ⟨front, back, split, _, closes⟩ := (endsAt_iff here).mp ends
    exact not_closes_of_pieces?_eq_none unended front back split closes
  have spells : Spells ['\n', '\t', '\r', '\n'] ['\\', 'n', '\\', 't', '\\', 'r', '\n'] :=
    .escaped .lineFeed (.escaped .tab (.escaped .carriageReturn
      (.plain (by decide) (by decide) .nil)))
  exact ⟨⟨boundary, rfl, ends, denotes_decode _,
      ((string_value .skip).1 source 1 boundary rfl).1 ⟨14, ends⟩⟩,
    ⟨start, rfl, never, ((string_value .skip).1 unclosed 0 start rfl).2 never⟩,
    spells, (string_value .skip).2 _ _ spells⟩

end Scans

end LuneSyntax
