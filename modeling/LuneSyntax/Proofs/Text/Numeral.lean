import Mathlib
import LuneSyntax.Text.Numeral

/-!
# Written numbers

The digits in which a number is written are digits of the radix, and their value is the number.
Zeros in front change nothing.
-/

set_option autoImplicit false

namespace LuneSyntax

theorem Radix.one_lt_base (radix : Radix) : 1 < radix.base := by
  cases radix <;> decide

namespace Numeral

/-! ## Digits -/

theorem digitValue_digitChar {radix : Radix} {digit : Nat} (small : digit < radix.base) :
    digitValue digit.digitChar = digit := by
  have values : ∀ digit < radix.base, digitValue digit.digitChar = digit := by
    cases radix <;> decide
  exact values digit small

theorem digitChar_mem_digits {radix : Radix} {digit : Nat} (small : digit < radix.base) :
    digit.digitChar ∈ radix.digits := by
  have listed : ∀ digit < radix.base, digit.digitChar ∈ radix.digits := by
    cases radix <;> decide
  exact listed digit small

/-! ## Numbers without sign -/

/-- A number has one digit, or a last digit behind those of a smaller number. -/
theorem toDigits_cases (radix : Radix) (number : Nat) :
    number < radix.base ∧ Nat.toDigits radix.base number = [number.digitChar] ∨
      ∃ digit, number / radix.base < number ∧ digit < radix.base ∧
        radix.base * (number / radix.base) + digit = number ∧
        Nat.toDigits radix.base number =
          Nat.toDigits radix.base (number / radix.base) ++ [digit.digitChar] := by
  have positive := Nat.zero_lt_of_lt radix.one_lt_base
  rw [Nat.toDigits_eq_if radix.one_lt_base]
  split
  · rename_i small
    exact .inl ⟨small, rfl⟩
  · rename_i large
    have nonzero := Nat.lt_of_lt_of_le positive (Nat.not_lt.mp large)
    exact .inr ⟨number % radix.base, Nat.div_lt_self nonzero radix.one_lt_base,
      Nat.mod_lt _ positive, Nat.div_add_mod _ _, rfl⟩

theorem value_toDigits (radix : Radix) (number : Nat) :
    value radix (Nat.toDigits radix.base number) = number := by
  induction number using Nat.strongRecOn with
  | ind number ih =>
      rcases toDigits_cases radix number with ⟨small, one⟩ | ⟨digit, less, small, split, more⟩
      · have last := value_append_singleton radix [] number.digitChar
        rw [value_nil, Nat.mul_zero, Nat.zero_add, digitValue_digitChar small] at last
        rw [one]
        exact last
      · rw [more, value_append_singleton, ih _ less, digitValue_digitChar small, split]

theorem mem_digits_of_mem_toDigits {radix : Radix} {number : Nat} {character : Char}
    (member : character ∈ Nat.toDigits radix.base number) : character ∈ radix.digits := by
  induction number using Nat.strongRecOn with
  | ind number ih =>
      rcases toDigits_cases radix number with ⟨small, one⟩ | ⟨digit, less, small, _, more⟩
      · rw [one] at member
        rw [List.mem_singleton.mp member]
        exact digitChar_mem_digits small
      · rw [more] at member
        rcases List.mem_append.mp member with front | last
        · exact ih _ less front
        · rw [List.mem_singleton.mp last]
          exact digitChar_mem_digits small

theorem value_replicate_zero_append (radix : Radix) (zeros : Nat) (digits : List Char) :
    value radix (List.replicate zeros '0' ++ digits) = value radix digits := by
  induction zeros with
  | zero => rfl
  | succ zeros ih => exact ih

/-! ## Integers in base ten -/

theorem toList_decimal_natCast (number : Nat) :
    (decimal number).toList = Nat.toDigits 10 number := by
  have same : decimal number = toString number := rfl
  rw [same, Nat.toString_eq_ofList_toDigits, String.toList_ofList]

theorem toList_decimal_negSucc (number : Nat) :
    (decimal (.negSucc number)).toList = '-' :: Nat.toDigits 10 (number + 1) := by
  have same : decimal (.negSucc number) = "-" ++ toString (number + 1) := rfl
  rw [same, Nat.toString_eq_ofList_toDigits]
  simp

/-- The numbers that can be written are those of at most so many digits. -/
theorem isWritable_iff {number : Int} :
    IsWritable number ↔ (Nat.toDigits 10 number.natAbs).length ≤ digitLimit := by
  have positive : 0 < digitLimit := by decide
  rw [IsWritable, leastOverlong]
  generalize digitLimit = places at positive
  rw [Nat.length_toDigits_le_iff (by decide) positive, leastBeyond, Nat.pow_eq]

/-! ## Numbers in base sixteen -/

theorem hexadecimal_eq (width number : Nat) :
    hexadecimal width number =
      List.replicate (width - (Nat.toDigits 16 number).length) '0' ++ Nat.toDigits 16 number :=
  rfl

theorem hexadecimal_one {number : Nat} (small : number < 16) :
    hexadecimal 1 number = [number.digitChar] := by
  rw [hexadecimal_eq, Nat.toDigits_eq_if (by decide : 1 < 16), if_pos small]
  rfl

/-- In a larger width, the last digit stands behind those of the number without it. -/
theorem hexadecimal_succ {width : Nat} (positive : 0 < width) (number : Nat) :
    hexadecimal (width + 1) number =
      hexadecimal width (number / 16) ++ [(number % 16).digitChar] := by
  rw [hexadecimal_eq, hexadecimal_eq, Nat.toDigits_eq_if (by decide : 1 < 16)]
  split
  · rename_i small
    obtain ⟨zeros, rfl⟩ := Nat.exists_eq_succ_of_ne_zero (Nat.ne_of_gt positive)
    have zero : Nat.toDigits 16 0 = ['0'] := rfl
    rw [Nat.div_eq_of_lt small, Nat.mod_eq_of_lt small, zero]
    simp [List.replicate_succ']
  · rw [List.length_append, List.length_singleton, Nat.add_sub_add_right, List.append_assoc]

theorem value_hexadecimal (width number : Nat) :
    value .hexadecimal (hexadecimal width number) = number := by
  rw [hexadecimal_eq, value_replicate_zero_append]
  exact value_toDigits .hexadecimal number

theorem length_hexadecimal {width number : Nat} (positive : 0 < width)
    (small : number < 16 ^ width) : (hexadecimal width number).length = width := by
  have bounded := (Nat.length_toDigits_le_iff (b := 16) (by decide) positive).mpr small
  rw [hexadecimal_eq, List.length_append, List.length_replicate]
  omega

theorem mem_digits_of_mem_hexadecimal {width number : Nat} {character : Char}
    (member : character ∈ hexadecimal width number) : character ∈ Radix.hexadecimal.digits := by
  rw [hexadecimal_eq] at member
  rcases List.mem_append.mp member with zero | digit
  · rw [List.eq_of_mem_replicate zero]
    decide
  · exact mem_digits_of_mem_toDigits digit

end Numeral

end LuneSyntax
