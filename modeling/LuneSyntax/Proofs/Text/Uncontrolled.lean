import LuneSyntax.Proofs.Text.Numeral
import LuneSyntax.Token.Basic

/-!
# Texts without control characters

A text in which every character comes at or behind the space breaks no line and begins no control
sequence. Numerals and quoted texts are such texts whatever they show, and so are the displays of
tokens.
-/

set_option autoImplicit false

namespace LuneSyntax

/-- No character of the text is a control character of ASCII in front of the space. -/
def Uncontrolled (text : List Char) : Prop :=
  ∀ character ∈ text, 0x20 ≤ character.toNat

namespace Uncontrolled

variable {text left right : List Char}

instance : DecidablePred Uncontrolled := fun text => List.decidableBAll _ text

theorem not_mem (clear : Uncontrolled text) {control : Char} (low : control.toNat < 0x20) :
    control ∉ text := by
  intro member
  have high := clear control member
  omega

theorem lineFeed_not_mem (clear : Uncontrolled text) : '\n' ∉ text :=
  clear.not_mem (by decide)

theorem escape_not_mem (clear : Uncontrolled text) : '\x1b' ∉ text :=
  clear.not_mem (by decide)

@[simp]
theorem append_iff : Uncontrolled (left ++ right) ↔ Uncontrolled left ∧ Uncontrolled right :=
  List.forall_mem_append

@[simp]
theorem cons_iff {character : Char} :
    Uncontrolled (character :: text) ↔ 0x20 ≤ character.toNat ∧ Uncontrolled text :=
  List.forall_mem_cons

end Uncontrolled

/-! ## Numerals -/

theorem Radix.uncontrolled_digits (radix : Radix) : Uncontrolled radix.digits := by
  cases radix <;> decide

namespace Numeral

theorem uncontrolled_toDigits (number : Nat) : Uncontrolled (Nat.toDigits 10 number) := by
  intro character member
  have digit : character ∈ Radix.decimal.digits := mem_digits_of_mem_toDigits member
  exact Radix.decimal.uncontrolled_digits character digit

theorem uncontrolled_decimal (number : Int) : Uncontrolled (decimal number).toList := by
  cases number with
  | ofNat number =>
      rw [Int.ofNat_eq_natCast, toList_decimal_natCast]
      exact uncontrolled_toDigits number
  | negSucc number =>
      rw [toList_decimal_negSucc, Uncontrolled.cons_iff]
      exact ⟨by decide, uncontrolled_toDigits _⟩

theorem uncontrolled_hexadecimal (width number : Nat) :
    Uncontrolled (hexadecimal width number) := by
  intro character member
  apply Radix.hexadecimal.uncontrolled_digits
  exact mem_digits_of_mem_hexadecimal member

end Numeral

/-! ## Quoted texts -/

namespace Quoted

theorem uncontrolled_escapeCodePoint (codePoint : Nat) :
    Uncontrolled (escapeCodePoint codePoint) := by
  have digits := fun width => Numeral.uncontrolled_hexadecimal width codePoint
  unfold escapeCodePoint
  split
  · exact Uncontrolled.append_iff.mpr ⟨by decide, digits 2⟩
  · split
    · exact Uncontrolled.append_iff.mpr ⟨by decide, digits 4⟩
    · exact Uncontrolled.append_iff.mpr ⟨by decide, digits 8⟩

/-- A character that is no letter of an escape of its own is shown only if it can be printed. -/
theorem uncontrolled_escape {mark : Char} (visible : 0x20 ≤ mark.toNat) (character : Char) :
    Uncontrolled (escape mark character) := by
  unfold escape
  split
  · rename_i delimiter
    rcases delimiter with rfl | rfl
    · simpa [Uncontrolled] using visible
    · decide
  · split
    · decide
    · split
      · decide
      · split
        · decide
        · split
          · rename_i printable
            simpa [Uncontrolled] using Printable.space_le_of_isPrintable printable
          · exact uncontrolled_escapeCodePoint _

theorem space_le_delimiter (text : List Char) : 0x20 ≤ (delimiter text).toNat := by
  unfold delimiter
  split <;> decide

theorem uncontrolled_encode (text : List Char) : Uncontrolled (encode text) := by
  have visible := space_le_delimiter text
  rw [encode, Uncontrolled.append_iff, Uncontrolled.cons_iff]
  refine ⟨⟨visible, ?_⟩, by simpa [Uncontrolled] using visible⟩
  intro character member
  obtain ⟨escaped, _, inEscape⟩ := List.mem_flatMap.mp member
  exact uncontrolled_escape visible escaped character inEscape

end Quoted

/-! ## Tokens -/

theorem Payload.uncontrolled_display (payload : Payload) : Uncontrolled payload.display.toList := by
  cases payload with
  | number value => exact Numeral.uncontrolled_decimal value
  | text value =>
      rw [display, Quoted.toList_write]
      exact Quoted.uncontrolled_encode value.toList

theorem Token.Kind.uncontrolled_label (kind : Kind) : Uncontrolled kind.label.toList := by
  cases kind <;> decide

theorem Token.Kind.uncontrolled_text (kind : Kind) : Uncontrolled kind.text.toList := by
  cases kind <;> decide

/-- A token is displayed without control characters, whatever its payload holds. -/
theorem Token.uncontrolled_display (token : Token) : Uncontrolled token.display.toList := by
  have label := token.kind.uncontrolled_label
  have line := Numeral.uncontrolled_decimal token.line
  unfold display
  cases token.payload with
  | none =>
      simp only [String.toList_append, Uncontrolled.append_iff]
      exact ⟨⟨⟨⟨by decide, label⟩, by decide⟩, line⟩, by decide⟩
  | some payload =>
      simp only [String.toList_append, Uncontrolled.append_iff]
      exact ⟨⟨⟨⟨⟨⟨by decide, label⟩, by decide⟩, payload.uncontrolled_display⟩, by decide⟩, line⟩,
        by decide⟩

end LuneSyntax
