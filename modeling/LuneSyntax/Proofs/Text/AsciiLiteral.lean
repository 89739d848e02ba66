import LuneSyntax.Proofs.Text.Numeral
import LuneSyntax.Text.AsciiLiteral

/-!
# Texts of ASCII literals

An ASCII literal consists of plain characters only. It determines the text that it stands for and
where it ends, since every character can be read back from the beginning of what is written.
-/

set_option autoImplicit false

namespace LuneSyntax.AsciiLiteral

/-! ## Escapes -/

/-- The character that a short escape stands for, by the mark behind its backslash. -/
def marked (mark : Char) : Char :=
  if mark = 'n' then '\n'
  else if mark = 'r' then '\r'
  else if mark = 't' then '\t'
  else if mark = 'b' then '\x08'
  else if mark = 'f' then '\x0c'
  else mark

/-- A character is written with a short escape, as itself, or by its UTF-16 units. -/
inductive EscapedAs (character : Char) : List Char → Prop where
  | short {mark : Char} : marked mark = character → isPlain mark = true → mark ≠ 'u' →
      EscapedAs character ['\\', mark]
  | plain : isPlain character = true → character ≠ '\x22' → character ≠ '\\' →
      EscapedAs character [character]
  | units : EscapedAs character ((units character.toNat).flatMap escapeUnit)

theorem escapedAs_escape (character : Char) : EscapedAs character (escape character) := by
  unfold escape
  split
  · rename_i delimiter
    rcases delimiter with rfl | rfl
    · exact .short rfl rfl (by decide)
    · exact .short rfl rfl (by decide)
  · rename_i ordinary
    rw [not_or] at ordinary
    split
    · rename_i newline
      exact .short newline.symm rfl (by decide)
    split
    · rename_i carriageReturn
      exact .short carriageReturn.symm rfl (by decide)
    split
    · rename_i tab
      exact .short tab.symm rfl (by decide)
    split
    · rename_i backspace
      exact .short backspace.symm rfl (by decide)
    split
    · rename_i formFeed
      exact .short formFeed.symm rfl (by decide)
    split
    · rename_i plain
      exact .plain plain ordinary.1 ordinary.2
    · exact .units

theorem exists_units_eq_cons (codePoint : Nat) : ∃ unit more, units codePoint = unit :: more := by
  unfold units
  split
  · exact ⟨_, _, rfl⟩
  · exact ⟨_, _, rfl⟩

/-! ## Plain characters -/

theorem isPlain_of_mem_digits {radix : Radix} {character : Char}
    (digit : character ∈ radix.digits) : isPlain character = true := by
  have plain : radix.digits.all isPlain = true := by cases radix <;> decide
  exact List.all_eq_true.mp plain character digit

theorem isPlain_of_mem_escapeUnit {unit : Nat} {character : Char}
    (member : character ∈ escapeUnit unit) : isPlain character = true := by
  rcases List.mem_append.mp member with mark | digit
  · have plain : ['\\', 'u'].all isPlain = true := by decide
    exact List.all_eq_true.mp plain character mark
  · exact isPlain_of_mem_digits (Numeral.mem_digits_of_mem_hexadecimal digit)

theorem EscapedAs.isPlain {character written : Char} {text : List Char}
    (escaped : EscapedAs character text) (member : written ∈ text) :
    AsciiLiteral.isPlain written = true := by
  cases escaped with
  | short _ plain _ =>
      rcases List.mem_cons.mp member with rfl | isMark
      · decide
      · rw [List.mem_singleton.mp isMark]
        exact plain
  | plain plain _ _ =>
      rw [List.mem_singleton.mp member]
      exact plain
  | units =>
      obtain ⟨unit, _, inUnit⟩ := List.mem_flatMap.mp member
      exact isPlain_of_mem_escapeUnit inUnit

theorem isPlain_of_mem_encode {text : List Char} {written : Char}
    (member : written ∈ encode text) : isPlain written = true := by
  simp only [encode, List.cons_append, List.mem_cons, List.mem_append, List.mem_flatMap,
    List.not_mem_nil, or_false] at member
  rcases member with rfl | ⟨character, _, inEscape⟩ | rfl
  · decide
  · exact (escapedAs_escape character).isPlain inEscape
  · decide

/-! ## Reading back -/

/-- The UTF-16 unit whose number begins a text. -/
def leadingUnit (text : List Char) : Nat :=
  Numeral.value .hexadecimal (text.take 4)

/-- The code point of one or two UTF-16 units, the first of them without its backslash and mark. -/
def leadingPoint (text : List Char) : Nat :=
  if 0xD800 ≤ leadingUnit text ∧ leadingUnit text < 0xDC00 then
    0x10000 + (leadingUnit text - 0xD800) * 0x400 + (leadingUnit (text.drop 6) - 0xDC00)
  else leadingUnit text

/-- The code point of the character whose escape begins a text. -/
def leading : List Char → Nat
  | [] => 0
  | first :: rest =>
    if first = '\\' then
      match rest with
      | [] => 0
      | mark :: rest => if mark = 'u' then leadingPoint rest else (marked mark).toNat
    else first.toNat

theorem leadingUnit_hexadecimal {unit : Nat} (small : unit < 0x10000) (rest : List Char) :
    leadingUnit (Numeral.hexadecimal 4 unit ++ rest) = unit := by
  have four := Numeral.length_hexadecimal (by decide : 0 < 4) small
  rw [leadingUnit, List.take_left' four, Numeral.value_hexadecimal]

theorem leading_unit {unit : Nat} (small : unit < 0x10000)
    (single : unit < 0xD800 ∨ 0xDFFF < unit) (rest : List Char) :
    leading (escapeUnit unit ++ rest) = unit := by
  have shape : escapeUnit unit ++ rest =
      '\\' :: 'u' :: (Numeral.hexadecimal 4 unit ++ rest) := by
    simp [escapeUnit]
  rw [shape, leading, if_pos rfl, if_pos rfl, leadingPoint, leadingUnit_hexadecimal small,
    if_neg (by omega)]

theorem leading_pair {high low : Nat} (isHigh : 0xD800 ≤ high ∧ high < 0xDC00)
    (small : low < 0x10000) (rest : List Char) :
    leading (escapeUnit high ++ (escapeUnit low ++ rest)) =
      0x10000 + (high - 0xD800) * 0x400 + (low - 0xDC00) := by
  have highSmall : high < 0x10000 := by omega
  have four := Numeral.length_hexadecimal (by decide : 0 < 4) highSmall
  have shape : escapeUnit high ++ (escapeUnit low ++ rest) =
      '\\' :: 'u' :: (Numeral.hexadecimal 4 high ++ (escapeUnit low ++ rest)) := by
    simp [escapeUnit]
  have behind : (Numeral.hexadecimal 4 high ++ (escapeUnit low ++ rest)).drop 6 =
      Numeral.hexadecimal 4 low ++ rest := by
    simp [List.drop_append, four, escapeUnit]
  rw [shape, leading, if_pos rfl, if_pos rfl, leadingPoint, behind,
    leadingUnit_hexadecimal highSmall, leadingUnit_hexadecimal small, if_pos isHigh]

theorem leading_units (character : Char) (rest : List Char) :
    leading ((units character.toNat).flatMap escapeUnit ++ rest) = character.toNat := by
  have valid : character.toNat < 0xD800 ∨ 0xDFFF < character.toNat ∧ character.toNat < 0x110000 :=
    character.valid
  generalize character.toNat = codePoint at valid
  unfold units
  split
  · rename_i small
    rw [List.flatMap_cons, List.flatMap_nil, List.append_nil]
    apply leading_unit small
    omega
  · rename_i large
    rw [List.flatMap_cons, List.flatMap_cons, List.flatMap_nil, List.append_nil,
      List.append_assoc, leading_pair]
    · omega
    · omega
    · omega

/-- What an escape stands for can be read off its beginning, whatever stands behind it. -/
theorem EscapedAs.leading {character : Char} {text : List Char}
    (escaped : EscapedAs character text) (rest : List Char) :
    AsciiLiteral.leading (text ++ rest) = character.toNat := by
  cases escaped with
  | @short mark stands _ notUnit =>
      rw [← stands, List.cons_append, List.singleton_append, AsciiLiteral.leading, if_pos rfl,
        if_neg notUnit]
  | plain _ _ notBackslash =>
      rw [List.singleton_append, AsciiLiteral.leading.eq_def]
      exact if_neg notBackslash
  | units => exact leading_units character rest

theorem escape_append_injective {left right : Char} {leftRest rightRest : List Char}
    (same : escape left ++ leftRest = escape right ++ rightRest) :
    left = right ∧ leftRest = rightRest := by
  have points : left.toNat = right.toNat := by
    rw [← (escapedAs_escape left).leading leftRest, same, (escapedAs_escape right).leading]
  obtain rfl : left = right := Char.toNat_inj.mp points
  exact ⟨rfl, List.append_cancel_left same⟩

theorem EscapedAs.ne_quote {character : Char} {text : List Char}
    (escaped : EscapedAs character text) {rest after : List Char} :
    text ++ rest ≠ '\x22' :: after := by
  cases escaped with
  | short _ _ _ => simp
  | plain _ notQuote _ => simp [notQuote]
  | units =>
      obtain ⟨unit, more, split⟩ := exists_units_eq_cons character.toNat
      simp [split, escapeUnit]

theorem body_append_injective {left right leftRest rightRest : List Char}
    (same : left.flatMap escape ++ '\x22' :: leftRest =
      right.flatMap escape ++ '\x22' :: rightRest) :
    left = right ∧ leftRest = rightRest := by
  induction left generalizing right with
  | nil =>
      cases right with
      | nil => exact ⟨rfl, (List.cons.inj same).2⟩
      | cons character right =>
          rw [List.flatMap_cons, List.append_assoc] at same
          exact absurd same.symm (escapedAs_escape character).ne_quote
  | cons character left ih =>
      rw [List.flatMap_cons, List.append_assoc] at same
      cases right with
      | nil => exact absurd same (escapedAs_escape character).ne_quote
      | cons other right =>
          rw [List.flatMap_cons, List.append_assoc] at same
          obtain ⟨rfl, behind⟩ := escape_append_injective same
          obtain ⟨rfl, rests⟩ := ih behind
          exact ⟨rfl, rests⟩

/-- A literal determines its text and where it ends. -/
theorem encode_append_injective {left right leftRest rightRest : List Char}
    (same : encode left ++ leftRest = encode right ++ rightRest) :
    left = right ∧ leftRest = rightRest := by
  simp only [encode, List.cons_append, List.append_assoc, List.nil_append, List.cons.injEq,
    true_and] at same
  exact body_append_injective same

end LuneSyntax.AsciiLiteral
