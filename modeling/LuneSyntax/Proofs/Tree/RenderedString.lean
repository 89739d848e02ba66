import LuneSyntax.Proofs.Lexeme.StringValue
import LuneSyntax.Proofs.Text.AsciiLiteral
import LuneSyntax.Tree.SExpression

/-!
# Rendered strings

The literal that a string is printed as can be scanned, but not all of its escapes are escapes of
the language. The others are kept as they are written, so that the value is the string itself only
if it consists of characters for which both sides have the same spelling.
-/

set_option autoImplicit false

namespace LuneSyntax

/-! ## Texts inside a literal -/

namespace Lexeme.StringLiteral

/-- In front of the inside of any literal, a text is inside as well, and it is decoded on its own
to another text. -/
def DecodesTo (written decoded : List Char) : Prop :=
  ∀ body, Enclosed body →
    Enclosed (written ++ body) ∧ decode (written ++ body) = decoded ++ decode body

theorem decodesTo_nil : DecodesTo [] [] :=
  fun _ enclosed => ⟨enclosed, rfl⟩

theorem DecodesTo.append {written decoded others decodedOthers : List Char}
    (first : DecodesTo written decoded) (second : DecodesTo others decodedOthers) :
    DecodesTo (written ++ others) (decoded ++ decodedOthers) := by
  intro body enclosed
  obtain ⟨othersEnclosed, behind⟩ := second body enclosed
  obtain ⟨wholeEnclosed, whole⟩ := first _ othersEnclosed
  rw [List.append_assoc, List.append_assoc]
  exact ⟨wholeEnclosed, whole.trans (congrArg (decoded ++ ·) behind)⟩

theorem decodesTo_escape (escape : Escape) :
    DecodesTo ['\\', escape.mark] [escape.meaning] := by
  intro body enclosed
  refine ⟨enclosed.escape escape.mark, ?_⟩
  simp [decode]

theorem decodesTo_plain {character : Char} (notQuote : character ≠ '\x22')
    (notBackslash : character ≠ '\\') : DecodesTo [character] [character] :=
  fun body enclosed => ⟨enclosed.plain notQuote notBackslash, decode_cons notBackslash body⟩

/-- A backslash is kept together with the character behind it if the two are no escape. -/
theorem decodesTo_backslash {mark : Char} (unknown : Escape.ofMark? mark = none) :
    DecodesTo ['\\', mark] ['\\', mark] := by
  have notBackslash : mark ≠ '\\' := by
    rintro rfl
    cases unknown
  intro body enclosed
  obtain ⟨markEnclosed, marked⟩ :=
    decodesTo_plain (ne_quote_of_ofMark? unknown) notBackslash body enclosed
  refine ⟨markEnclosed.backslash unknown, ?_⟩
  calc decode ('\\' :: mark :: body)
      = '\\' :: decode (mark :: body) := by rw [decode, unknown]
    _ = '\\' :: mark :: decode body := congrArg ('\\' :: ·) marked

theorem decodesTo_self {text : List Char}
    (ordinary : ∀ character ∈ text, character ≠ '\x22' ∧ character ≠ '\\') :
    DecodesTo text text := by
  induction text with
  | nil => exact decodesTo_nil
  | cons character text ih =>
      obtain ⟨⟨notQuote, notBackslash⟩, others⟩ := List.forall_mem_cons.mp ordinary
      exact (decodesTo_plain notQuote notBackslash).append (ih others)

end Lexeme.StringLiteral

/-! ## What becomes of a printed character -/

namespace AsciiLiteral

open Lexeme.StringLiteral

/-- The characters that are printed as themselves, or with an escape that is one of the language
as well. -/
def IsShared (character : Char) : Prop :=
  character = '\n' ∨ character = '\r' ∨ character = '\t' ∨
    0x20 ≤ character.toNat ∧ character.toNat ≤ 0x7E

instance (character : Char) : Decidable (IsShared character) :=
  inferInstanceAs (Decidable (_ ∨ _))

/-- A backslash, its mark, and the four digits of a number in base sixteen. -/
def unitText (unit : Nat) : List Char :=
  '\\' :: 'u' ::
    [unit / 0x1000, unit / 0x100 % 0x10, unit / 0x10 % 0x10, unit % 0x10].map Nat.digitChar

/-- What a printed character is scanned as: itself, or the text of its escape. A character behind
the first 65536 has two numbers, those of its surrogates. -/
def readBack (character : Char) : List Char :=
  if IsShared character then [character]
  else if character = '\x08' then ['\\', 'b']
  else if character = '\x0c' then ['\\', 'f']
  else if character.toNat < 0x10000 then unitText character.toNat
  else
    unitText (0xD800 + (character.toNat - 0x10000) / 0x400) ++
      unitText (0xDC00 + (character.toNat - 0x10000) % 0x400)

theorem readBack_of_shared {character : Char} (shared : IsShared character) :
    readBack character = [character] :=
  if_pos shared

theorem one_lt_length_readBack {character : Char} (unshared : ¬ IsShared character) :
    1 < (readBack character).length := by
  rw [readBack, if_neg unshared]
  split
  · decide
  split
  · decide
  split
  · simp [unitText]
  · simp [unitText]

theorem escapeUnit_eq {unit : Nat} (small : unit < 0x10000) : escapeUnit unit = unitText unit := by
  have digits : Numeral.hexadecimal 4 unit =
      [unit / 0x1000, unit / 0x100 % 0x10, unit / 0x10 % 0x10, unit % 0x10].map Nat.digitChar := by
    rw [Numeral.hexadecimal_succ (by decide), Numeral.hexadecimal_succ (by decide),
      Numeral.hexadecimal_succ (by decide), Numeral.hexadecimal_one (by omega)]
    simp [Nat.div_div_eq_div_mul]
  rw [escapeUnit, digits]
  rfl

/-- The mark of a number is no mark of the language, so its escape is kept. -/
theorem decodesTo_escapeUnit (unit : Nat) : DecodesTo (escapeUnit unit) (escapeUnit unit) := by
  have unknown : Escape.ofMark? 'u' = none := by decide
  have quote : '\x22' ∉ Radix.hexadecimal.digits := by decide
  have backslash : '\\' ∉ Radix.hexadecimal.digits := by decide
  refine (decodesTo_backslash unknown).append (decodesTo_self fun digit member => ?_)
  have listed := Numeral.mem_digits_of_mem_hexadecimal member
  exact ⟨ne_of_mem_of_not_mem listed quote, ne_of_mem_of_not_mem listed backslash⟩

theorem decodesTo_units {character : Char} (unshared : ¬ IsShared character)
    (notBackspace : character ≠ '\x08') (notFormFeed : character ≠ '\x0c') :
    DecodesTo ((units character.toNat).flatMap escapeUnit) (readBack character) := by
  have bounded : character.toNat < 0x110000 := by
    have valid : character.toNat < 0xD800 ∨ 0xDFFF < character.toNat ∧ character.toNat < 0x110000 :=
      character.valid
    omega
  rw [readBack, if_neg unshared, if_neg notBackspace, if_neg notFormFeed]
  unfold units
  split
  · rename_i small
    rw [List.flatMap_singleton, ← escapeUnit_eq small]
    exact decodesTo_escapeUnit _
  · rename_i large
    rw [List.flatMap_cons, List.flatMap_singleton, ← escapeUnit_eq (by omega),
      ← escapeUnit_eq (by omega)]
    exact (decodesTo_escapeUnit _).append (decodesTo_escapeUnit _)

/-- Every escape that is printed is one of the language, or else it is kept. -/
theorem decodesTo_readBack (character : Char) :
    DecodesTo (escape character) (readBack character) := by
  unfold escape
  split
  · rename_i delimiter
    rcases delimiter with rfl | rfl
    · exact decodesTo_escape .quote
    · exact decodesTo_escape .backslash
  rename_i ordinary
  rw [not_or] at ordinary
  split
  · rename_i newline
    subst newline
    exact decodesTo_escape .newline
  rename_i notNewline
  split
  · rename_i carriageReturn
    subst carriageReturn
    exact decodesTo_escape .carriageReturn
  rename_i notCarriageReturn
  split
  · rename_i tab
    subst tab
    exact decodesTo_escape .tab
  rename_i notTab
  split
  · rename_i backspace
    subst backspace
    exact decodesTo_backslash rfl
  rename_i notBackspace
  split
  · rename_i formFeed
    subst formFeed
    exact decodesTo_backslash rfl
  rename_i notFormFeed
  have isPlain_iff : isPlain character = true ↔ IsShared character := by
    simp [isPlain, IsShared, notNewline, notCarriageReturn, notTab]
  split
  · rename_i plain
    rw [readBack_of_shared (isPlain_iff.mp plain)]
    exact decodesTo_plain ordinary.1 ordinary.2
  · rename_i notPlain
    exact decodesTo_units (mt isPlain_iff.mpr notPlain) notBackspace notFormFeed

theorem decodesTo_flatMap_readBack (text : List Char) :
    DecodesTo (text.flatMap escape) (text.flatMap readBack) := by
  induction text with
  | nil => exact decodesTo_nil
  | cons character text ih => exact (decodesTo_readBack character).append ih

theorem length_le_length_readBack (text : List Char) :
    text.length ≤ (text.flatMap readBack).length := by
  induction text with
  | nil => exact Nat.le_refl 0
  | cons character text ih =>
      have positive : 0 < (readBack character).length := by
        by_cases shared : IsShared character
        · rw [readBack_of_shared shared]
          exact Nat.zero_lt_one
        · exact Nat.zero_lt_of_lt (one_lt_length_readBack shared)
      rw [List.flatMap_cons, List.length_append, List.length_cons]
      omega

/-- A text is read back as itself only character by character, since no escape is shorter than
what it stands for. -/
theorem flatMap_readBack_eq_iff {text : List Char} :
    text.flatMap readBack = text ↔ ∀ character ∈ text, IsShared character := by
  induction text with
  | nil => simp
  | cons character text ih =>
      rw [List.forall_mem_cons, List.flatMap_cons]
      by_cases shared : IsShared character
      · rw [readBack_of_shared shared, List.singleton_append, List.cons_inj_right, ih]
        exact (and_iff_right shared).symm
      · have longer := one_lt_length_readBack shared
        have others := length_le_length_readBack text
        refine iff_of_false (fun same => ?_) (fun both => shared both.1)
        have lengths := congrArg List.length same
        rw [List.length_append, List.length_cons] at lengths
        omega

theorem lineFeed_not_mem_encode (text : List Char) : '\n' ∉ encode text := by
  intro member
  have plain := isPlain_of_mem_encode member
  cases plain

end AsciiLiteral

/-! ## Scans -/

open AsciiLiteral Lexeme.StringLiteral

/-- A string that is printed is scanned to a single string literal. Its value is the string if all
characters of the string are shared, and otherwise the string with every other character replaced
by the text of its escape. -/
theorem scan_render_string (policy : UnknownPolicy) (text : String) :
    ∃ (stream : TokenStream) (value : String),
      scan policy (Expr.string text).render.toList = .ok stream ∧
      stream.toList =
        [⟨.string, some (.text value), 0, (Expr.string text).render.length, 1⟩,
          ⟨.endOfInput, none, (Expr.string text).render.length,
            (Expr.string text).render.length, 1⟩] ∧
      (value = text ↔ ∀ character ∈ text.toList, IsShared character) ∧
      value.toList = text.toList.flatMap readBack := by
  obtain ⟨enclosed, decoded⟩ := decodesTo_flatMap_readBack text.toList [] enclosed_nil
  have nothing : decode [] = [] := rfl
  rw [List.append_nil] at enclosed decoded
  rw [nothing, List.append_nil] at decoded
  have whole : (Lexeme.quoted (text.toList.flatMap escape)).text =
      (Expr.string text).render.toList := by
    rw [Expr.render, toList_write]
    rfl
  have read : Lexeme.readUnder policy (Lexeme.quoted (text.toList.flatMap escape)).first
      ((Lexeme.quoted (text.toList.flatMap escape)).more ++ []) =
        .ok (Lexeme.quoted (text.toList.flatMap escape)) :=
    Lexeme.readUnder_quoted enclosed
  rw [List.append_nil] at read
  obtain ⟨stream, scanned, listed⟩ := Lexeme.scan_alone _ read rfl
  have unbroken : (Expr.string text).render.toList.count '\n' = 0 := by
    rw [Expr.render, toList_write]
    exact List.count_eq_zero_of_not_mem (lineFeed_not_mem_encode _)
  rw [whole] at scanned listed
  rw [unbroken, String.length_toList] at listed
  refine ⟨stream, String.ofList (decode (text.toList.flatMap escape)), scanned, listed, ?_, ?_⟩
  · rw [← String.toList_inj, String.toList_ofList, decoded]
    exact flatMap_readBack_eq_iff
  · rw [String.toList_ofList, decoded]

end LuneSyntax
