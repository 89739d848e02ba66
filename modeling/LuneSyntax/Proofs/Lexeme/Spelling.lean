import LuneSyntax.Proofs.Lexeme.InsertedLayout
import LuneSyntax.Proofs.Text.Numeral

/-!
# Spelled tokens

Reading undoes writing: tokens that are written one behind the other, with a space between each
two of them, are scanned to the same kinds and payloads.
-/

set_option autoImplicit false

namespace LuneSyntax

/-! ## Literals that are written -/

namespace Lexeme.StringLiteral

/-- A piece that is read as it is written, whatever comes behind it. -/
inductive Piece.Certain : Piece → Prop where
  | escaped (escape : Escape) : Certain (.escaped escape)
  | plain {character : Char} : character ≠ '\x22' → character ≠ '\\' → Certain (.plain character)

theorem pieces?_spelling {pieces : List Piece} (certain : ∀ piece ∈ pieces, piece.Certain)
    (rest : List Char) : pieces? (spelling pieces ++ '\x22' :: rest) = some pieces := by
  induction pieces with
  | nil => rfl
  | cons piece pieces ih =>
      obtain ⟨here, behind⟩ := List.forall_mem_cons.mp certain
      have read := ih behind
      cases here with
      | escaped escape =>
          have written : spelling (.escaped escape :: pieces) ++ '\x22' :: rest =
              '\\' :: escape.mark :: (spelling pieces ++ '\x22' :: rest) := rfl
          rw [written, pieces?_escape escape.ofMark?_mark, read]
          rfl
      | @plain character notQuote notBackslash =>
          have written : spelling (.plain character :: pieces) ++ '\x22' :: rest =
              character :: (spelling pieces ++ '\x22' :: rest) := rfl
          rw [written, pieces?_plain notQuote notBackslash, read]
          rfl

/-- A backslash in front of every backslash and every quote. -/
def protect (text : List Char) : List Char :=
  text.flatMap fun character =>
    if character = '\\' ∨ character = '\x22' then ['\\', character] else [character]

def Piece.ofChar (character : Char) : Piece :=
  if character = '\\' then .escaped .backslash
  else if character = '\x22' then .escaped .quote
  else .plain character

theorem Piece.certain_ofChar (character : Char) : (Piece.ofChar character).Certain := by
  unfold ofChar
  split
  · exact .escaped .backslash
  · split
    · exact .escaped .quote
    · rename_i notBackslash notQuote
      exact .plain notQuote notBackslash

theorem spelling_map_ofChar (text : List Char) :
    spelling (text.map Piece.ofChar) = protect text := by
  rw [spelling, protect, List.flatMap_map]
  refine congrArg (text.flatMap ·) (funext fun character => ?_)
  unfold Piece.ofChar
  split
  · rename_i backslash
    rw [if_pos (.inl backslash), backslash]
    rfl
  · split
    · rename_i quote
      rw [if_pos (.inr quote), quote]
      rfl
    · rename_i notBackslash notQuote
      rw [if_neg (not_or.mpr ⟨notBackslash, notQuote⟩)]
      rfl

theorem meaning_map_ofChar (text : List Char) : meaning (text.map Piece.ofChar) = text := by
  rw [meaning, List.map_map]
  refine (List.map_congr_left fun character _ => ?_).trans (List.map_id text)
  simp only [Function.comp, Piece.ofChar, id]
  split
  · rename_i backslash
    exact backslash.symm
  · split
    · rename_i quote
      exact quote.symm
    · rfl

theorem enclosed_protect (text : List Char) :
    Enclosed (protect text) ∧ decode (protect text) = text := by
  have certain : ∀ piece ∈ text.map Piece.ofChar, piece.Certain := by
    intro piece member
    obtain ⟨character, _, rfl⟩ := List.mem_map.mp member
    exact Piece.certain_ofChar character
  obtain ⟨enclosed, denotes⟩ := pieces?_enclosed (pieces?_spelling certain [])
  rw [spelling_map_ofChar] at enclosed denotes
  rw [meaning_map_ofChar] at denotes
  exact ⟨enclosed, denotes.symm⟩

end Lexeme.StringLiteral

/-! ## Tokens that are written -/

namespace Token

/-- How a token is written in a source: a string between quotes, a line break as a line feed, and
every other token as its text. -/
def spelling (token : Token) : List Char :=
  match token.kind with
  | .string => '\x22' :: Lexeme.StringLiteral.protect token.content.toList ++ ['\x22']
  | .newline => ['\n']
  | _ => token.text.toList

/-- What a token is, wherever it stands. -/
def essence (token : Token) : Kind × Option Payload :=
  (token.kind, token.payload)

/-- The token is one that a source can hold: a name that is no reserved word, an integer in the
range of literals, any string, or a kind without payload other than the end of the input. -/
inductive Spellable (token : Token) : Prop where
  | name {text : String} : token.kind = .identifier → token.payload = some (.text text) →
      Lexeme.Word.IsWord text.toList [] → (∀ kind, (text.toList, kind) ∉ Kind.words) →
      Spellable token
  | integer {value : Int} : token.kind = .integer → token.payload = some (.number value) →
      0 ≤ value → value ≤ largestInteger → Spellable token
  | string {text : String} : token.kind = .string → token.payload = some (.text text) →
      Spellable token
  | plain : token.kind ∉ [.identifier, .integer, .string, .endOfInput] → token.payload = none →
      Spellable token

end Token

namespace Token.Kind

/-- Kinds without payload are a line break or stand in one of the three tables. -/
theorem listed_of_plain {kind : Kind}
    (plain : kind ∉ [.identifier, .integer, .string, .endOfInput]) :
    kind = .newline ∨ kind ∈ words.map (·.2) ∨ kind ∈ pairs.map (·.2) ∨
      kind ∈ singles.map (·.2) := by
  revert plain
  cases kind <;> decide

end Token.Kind

namespace Lexeme

/-- What follows a token that is written: nothing, or a space. -/
def Apart (rest : List Char) : Prop :=
  ∀ next ∈ rest.head?, next = ' '

/-- In front of what follows it, the text is read as one lexeme that becomes a token. -/
def ReadsAs (text : List Char) (kind : Token.Kind) (payload : Option Payload) : Prop :=
  ∃ first more, text = first :: more ∧ ∀ policy rest, Apart rest →
    readUnder policy first (more ++ rest) = .ok ⟨first, more, .token kind payload⟩

variable {text rest : List Char} {kind : Token.Kind} {payload : Option Payload}

theorem apart_nil : Apart [] :=
  fun _ next => nomatch next

theorem Apart.mayFollow (apart : Apart rest) (text : List Char) : MayFollow text [] rest := by
  intro next member
  rw [apart next member]
  exact .inr (.inl (by decide))

theorem readsAs_of_matches (shape : Shape)
    (found : ∀ rest, Apart rest → Matches shape text rest (.token kind payload))
    (fits : ∀ rest, Apart rest → ∀ radix digits, Number.Written rest radix digits text →
      Number.Fits radix digits) : ReadsAs text kind payload := by
  obtain ⟨first, more, rfl, _⟩ := (found [] apart_nil).exists_first
  refine ⟨first, more, rfl, fun policy rest apart => ?_⟩
  unfold readUnder
  rw [read_of_matches (found rest apart) (fits rest apart)]
  exact if_pos (by simp [admittedBy])

theorem readsAs_of_other_shape (shape : Shape) (other : shape ≠ .integer)
    (found : ∀ rest, Apart rest → Matches shape text rest (.token kind payload)) :
    ReadsAs text kind payload := by
  refine readsAs_of_matches shape found fun rest apart radix digits written => ?_
  exact absurd ((found rest apart).unique (.integer written)).symm other

/-! ## Words -/

theorem readsAs_of_isWord (word : Word.IsWord text [])
    (means : Word.Means text (.token kind payload)) : ReadsAs text kind payload :=
  readsAs_of_other_shape .word (by decide) fun _ apart =>
    .word (word.exchange (apart.mayFollow text)) means

theorem isWord_of_mem_words (listed : (text, kind) ∈ Token.Kind.words) : Word.IsWord text [] := by
  have lettered : ∀ entry ∈ Token.Kind.words,
      entry.1 ≠ [] ∧ entry.1.all Char.isAlpha = true := by decide
  obtain ⟨nonempty, letters⟩ := lettered _ listed
  obtain ⟨first, more, rfl⟩ := List.exists_cons_of_ne_nil nonempty
  obtain ⟨start, behind⟩ := List.forall_mem_cons.mp (List.all_eq_true.mp letters)
  refine ⟨first, more, rfl, .inl start, fun character member => .inl ?_, fun _ next => nomatch next⟩
  rw [Char.isAlphanum, behind character member]
  rfl

/-! ## Integers -/

theorem written_toDigits (number : Nat) (apart : Apart rest) :
    Number.Written rest .decimal (Nat.toDigits 10 number) (Nat.toDigits 10 number) := by
  have alone : Number.Written [] .decimal (Nat.toDigits 10 number) (Nat.toDigits 10 number) :=
    .plain Nat.toDigits_ne_nil
      ⟨fun _ => @Numeral.mem_digits_of_mem_toDigits .decimal number _, fun _ next => nomatch next⟩
      fun _ _ next => nomatch next
  exact alone.exchange (apart.mayFollow _)

theorem fits_toDigits {number : Nat} (small : number ≤ largestInteger) :
    Number.Fits .decimal (Nat.toDigits 10 number) where
  short := by
    intro _
    have tenDigits : (Nat.toDigits 10 number).length ≤ 10 :=
      (Nat.length_toDigits_le_iff (by decide) (by decide)).mpr
        (Nat.lt_of_le_of_lt small (by decide))
    exact tenDigits.trans (by decide)
  small := (Numeral.value_toDigits .decimal number).trans_le small

theorem readsAs_toDigits {number : Nat} (small : number ≤ largestInteger) :
    ReadsAs (Nat.toDigits 10 number) .integer (some (.number number)) := by
  have value : Numeral.value .decimal (Nat.toDigits 10 number) = number :=
    Numeral.value_toDigits .decimal number
  refine readsAs_of_matches .integer ?_ ?_
  · intro rest apart
    have found := Matches.integer (written_toDigits number apart)
    rwa [value] at found
  · intro rest apart radix digits written
    obtain ⟨rfl, rfl⟩ := (written_toDigits number apart).unique written
    exact fits_toDigits small

/-! ## Operators -/

theorem readsAs_of_mem_pairs {first second : Char}
    (listed : ((first, second), kind) ∈ Token.Kind.pairs) : ReadsAs [first, second] kind none :=
  readsAs_of_other_shape .pair (by decide) fun _ _ => .pair listed

theorem readsAs_of_mem_singles {first : Char} (listed : (first, kind) ∈ Token.Kind.singles) :
    ReadsAs [first] kind none := by
  refine readsAs_of_other_shape .single (by decide) fun rest apart => .single listed ?_
  intro second next joined paired
  rw [apart second next] at paired
  exact absurd (not_beginsLayout_of_mem_pairs paired) (by decide)

/-! ## Tokens -/

theorem readsAs_string (text : String) :
    ReadsAs ('\x22' :: StringLiteral.protect text.toList ++ ['\x22']) .string
      (some (.text text)) := by
  obtain ⟨enclosed, denotes⟩ := StringLiteral.enclosed_protect text.toList
  refine readsAs_of_other_shape .string (by decide) fun rest _ => ?_
  have found : Matches .string _ rest _ := .string enclosed
  rwa [denotes, String.ofList_toList] at found

theorem readsAs_lineFeed : ReadsAs ['\n'] .newline none :=
  readsAs_of_other_shape .lineFeed (by decide) fun _ _ => .lineFeed

theorem readsAs_text (plain : kind ∉ [.identifier, .integer, .string, .endOfInput])
    (notNewline : kind ≠ .newline) : ReadsAs kind.text.toList kind none := by
  rcases Token.Kind.listed_of_plain plain with newline | word | pair | single
  · exact absurd newline notNewline
  · obtain ⟨⟨word, _⟩, listed, rfl⟩ := List.mem_map.mp word
    rw [Token.Kind.toList_text (Token.Kind.spelling?_of_mem_words listed)]
    exact readsAs_of_isWord (isWord_of_mem_words listed) (.reserved listed)
  · obtain ⟨⟨⟨first, second⟩, _⟩, listed, rfl⟩ := List.mem_map.mp pair
    rw [Token.Kind.toList_text (Token.Kind.spelling?_of_mem_pairs listed)]
    exact readsAs_of_mem_pairs listed
  · obtain ⟨⟨first, _⟩, listed, rfl⟩ := List.mem_map.mp single
    rw [Token.Kind.toList_text (Token.Kind.spelling?_of_mem_singles listed)]
    exact readsAs_of_mem_singles listed

end Lexeme

namespace Token

theorem spelling_of_other {token : Token} (notString : token.kind ≠ .string)
    (notNewline : token.kind ≠ .newline) : token.spelling = token.text.toList := by
  unfold spelling
  split
  · contradiction
  · contradiction
  · rfl

theorem Spellable.readsAs {token : Token} (spellable : token.Spellable) :
    Lexeme.ReadsAs token.spelling token.kind token.payload := by
  cases spellable with
  | @name text isName named word notReserved =>
      have means := Lexeme.Word.Means.name notReserved
      rw [String.ofList_toList] at means
      rw [spelling_of_other (by simp [isName]) (by simp [isName]), Token.text, named, isName]
      exact Lexeme.readsAs_of_isWord word means
  | @integer value isInteger valued nonneg small =>
      obtain ⟨number, rfl⟩ := Int.eq_ofNat_of_zero_le nonneg
      rw [spelling_of_other (by simp [isInteger]) (by simp [isInteger]), Token.text, valued,
        isInteger]
      dsimp only [Payload.plain]
      rw [Numeral.toList_decimal_natCast]
      exact Lexeme.readsAs_toDigits (Int.ofNat_le.mp small)
  | @string text isString valued =>
      rw [spelling, isString, content, valued]
      exact Lexeme.readsAs_string text
  | plain plain unvalued =>
      by_cases newline : token.kind = .newline
      · rw [spelling, newline, unvalued]
        exact Lexeme.readsAs_lineFeed
      · have notString : token.kind ≠ .string := by
          rintro same
          rw [same] at plain
          exact plain (by decide)
        rw [spelling_of_other notString newline, Token.text, unvalued]
        exact Lexeme.readsAs_text plain newline

end Token

/-! ## Sequences -/

namespace Lexeme

theorem map_essence_tokensFrom (place : Place) (lexeme : Lexeme) (lexemes : List Lexeme)
    (token : Token) (same : lexeme.content = .token token.kind token.payload) :
    (tokensFrom place (lexeme :: lexemes)).map Token.essence =
      token.essence :: (tokensFrom (place.after lexeme.text) lexemes).map Token.essence := by
  rw [tokensFrom, token?, same]
  rfl

theorem exists_cut_of_spellable (policy : UnknownPolicy) {tokens : List Token}
    (spellable : ∀ token ∈ tokens, token.Spellable) :
    ∃ lexemes, textOf lexemes = [' '].intercalate (tokens.map Token.spelling) ∧
      Cut policy [] lexemes ∧ ∀ place,
        (tokensFrom place lexemes).map Token.essence = tokens.map Token.essence := by
  induction tokens with
  | nil => exact ⟨[], rfl, .nil, fun _ => rfl⟩
  | cons token tokens ih =>
      obtain ⟨here, behind⟩ := List.forall_mem_cons.mp spellable
      obtain ⟨first, more, written, reads⟩ := here.readsAs
      obtain ⟨lexemes, covered, cut, same⟩ := ih behind
      cases tokens with
      | nil =>
          refine ⟨[⟨first, more, .token token.kind token.payload⟩], ?_,
            .cons (reads policy [] apart_nil) .nil, fun place => ?_⟩
          · rw [List.map_cons, List.map_nil, List.intercalate_singleton, written]
            exact List.append_nil _
          · exact map_essence_tokensFrom place _ [] token rfl
      | cons next tokens =>
          have apart : Apart (' ' :: (textOf lexemes ++ [])) := by
            intro character member
            cases member
            rfl
          refine ⟨⟨first, more, .token token.kind token.payload⟩ :: ⟨' ', [], .layout⟩ :: lexemes,
            ?_, .cons (reads policy _ apart) (.cons (readUnder_space _) cut), fun place => ?_⟩
          · rw [List.map_cons, List.map_cons, List.intercalate_cons_cons, ← List.map_cons,
              ← covered, written, List.append_assoc]
            rfl
          · rw [map_essence_tokensFrom place _ _ token rfl, List.map_cons]
            exact congrArg (token.essence :: ·) (same _)

end Lexeme

/-- Tokens that a source can hold are scanned back from their spellings, whatever the policy: the
same kinds and payloads in the same order, and the end of the input behind them. -/
theorem scan_spelling (policy : UnknownPolicy) {tokens : List Token}
    (spellable : ∀ token ∈ tokens, token.Spellable) :
    ∃ stream, scan policy ([' '].intercalate (tokens.map Token.spelling)) = .ok stream ∧
      stream.toList.map Token.essence = tokens.map Token.essence ++ [(.endOfInput, none)] := by
  obtain ⟨lexemes, covered, cut, same⟩ := Lexeme.exists_cut_of_spellable policy spellable
  obtain ⟨stream, scanned, body⟩ := cut.scan_front
  rw [covered] at scanned
  refine ⟨stream, scanned, ?_⟩
  obtain ⟨_, rfl⟩ := scan_eq_ok_iff.mp scanned
  rw [TokenStream.toList, List.map_append, body, same]
  rfl

/-- A name that begins like a reserved word, a text with a quote and a backslash, a line break
and two operators that would be one without the space. -/
theorem scan_spelling_quote :
    let tokens : List Token :=
      [{ kind := .identifier, payload := some (.text "iff") },
        { kind := .string, payload := some (.text "\"\\\n") }, { kind := .newline },
        { kind := .equal }, { kind := .equalEqual },
        { kind := .integer, payload := some (.number 2147483647) }]
    (∀ token ∈ tokens, token.Spellable) ∧
      ∃ stream, scan .reject ([' '].intercalate (tokens.map Token.spelling)) = .ok stream ∧
        stream.toList.map Token.essence =
          tokens.map Token.essence ++ [(.endOfInput, none)] := by
  intro tokens
  have word : Lexeme.Word.IsWord "iff".toList [] :=
    ⟨'i', ['f', 'f'], rfl, by decide, by simp, fun _ next => nomatch next⟩
  have notReserved : ∀ kind, ("iff".toList, kind) ∉ Token.Kind.words := by
    simp [Token.Kind.words]
  have spellable : ∀ token ∈ tokens, token.Spellable := by
    simp only [tokens, List.forall_mem_cons]
    exact ⟨.name rfl rfl word notReserved, .string rfl rfl, .plain (by decide) rfl,
      .plain (by decide) rfl, .plain (by decide) rfl, .integer rfl rfl (by decide) (by decide),
      List.forall_mem_nil _⟩
  exact ⟨spellable, scan_spelling .reject spellable⟩

end LuneSyntax
