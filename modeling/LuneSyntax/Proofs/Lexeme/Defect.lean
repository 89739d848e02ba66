import LuneSyntax.Proofs.Lexeme.Exchange

/-!
# Defects

The ways in which a lexeme cannot be completed, stated on the text at which it begins. Each fixes
how much of the text has been read by then and what is reported.
-/

set_option autoImplicit false

namespace LuneSyntax.Lexeme

/-- What is wrong at the head of a text, with the part of it that has been read. -/
inductive Defect (policy : UnknownPolicy) : List Char → Flaw → Prop where
  | openString {rest : List Char} : StringLiteral.pieces? rest = none →
      Defect policy ('\x22' :: rest) ⟨'\x22' :: rest, .fault .unterminatedString⟩
  | missingDigits {radix : Radix} {mark : Char} {rest : List Char} :
      mark ∈ Number.marks radix → MaximalRun (· ∈ radix.digits) [] rest →
      Defect policy ('0' :: mark :: rest)
        ⟨['0', mark], .fault (.invalidNumber (String.ofList ['0', mark]) (.missingDigits radix))⟩
  | outOfRange {radix : Radix} {digits text rest : List Char} :
      Number.Written rest radix digits text → (radix = .decimal → digits.length ≤ digitLimit) →
      largestInteger < Numeral.value radix digits →
      Defect policy (text ++ rest)
        ⟨text, .fault (.invalidNumber (String.ofList text) .outOfRange)⟩
  | tooManyDigits {run rest : List Char} :
      Number.Written rest .decimal run run → digitLimit < run.length →
      Defect policy (run ++ rest) ⟨run, .tooManyDigits run.length⟩
  | unknown {character : Char} {rest : List Char} :
      policy = .reject → BeginsNothing (character :: rest) →
      Defect policy (character :: rest) ⟨[], .fault (.invalidCharacter character)⟩

variable {policy : UnknownPolicy} {first : Char} {rest : List Char} {flaw : Flaw}

/-! ## Numbers -/

theorem Number.Written.eq_of_decimal {digits text rest : List Char}
    (written : Written rest .decimal digits text) : digits = text := by
  cases written with
  | marked announced _ _ => cases announced
  | plain _ _ _ => rfl

theorem takeWhile_append_drop (property : Char → Bool) (text : List Char) :
    text.takeWhile property ++ text.drop (text.takeWhile property).length = text :=
  List.prefix_iff_eq_append.mp (List.takeWhile_prefix property)

/-- A digit begins an integer literal, unless the digits behind a radix mark are missing. -/
theorem Number.exists_written_or_missing (digit : first ∈ Radix.decimal.digits)
    (rest : List Char) :
    (∃ radix digits more after, rest = more ++ after ∧
      Written after radix digits (first :: more)) ∨
    ∃ radix mark after, first = '0' ∧ rest = mark :: after ∧ mark ∈ marks radix ∧
      MaximalRun (· ∈ radix.digits) [] after := by
  by_cases marked : first = '0' ∧ ∃ mark after radix, rest = mark :: after ∧ mark ∈ marks radix
  · obtain ⟨rfl, mark, after, radix, rfl, announced⟩ := marked
    have run := (maximalRun_takeWhile radix.isDigit after).congr (isDigit_iff radix)
    by_cases missing : after.takeWhile radix.isDigit = []
    · rw [missing] at run
      exact .inr ⟨radix, mark, after, rfl, rfl, announced, run⟩
    · refine .inl ⟨radix, _, mark :: _, _, ?_, .marked announced missing run⟩
      rw [List.cons_append, takeWhile_append_drop]
  · have unmarked : first = '0' → ∀ mark ∈ rest.head?, ∀ radix, mark ∉ marks radix := by
      intro zero mark next radix announced
      obtain ⟨after, split⟩ := List.head?_eq_some_iff.mp next
      exact marked ⟨zero, mark, after, radix, split, announced⟩
    exact .inl ⟨.decimal, _, _, _, (takeWhile_append_drop _ rest).symm,
      written_takeWhile digit unmarked⟩

theorem Number.read_of_missing {radix : Radix} {mark : Char} (announced : mark ∈ marks radix)
    (run : MaximalRun (· ∈ radix.digits) [] rest) :
    Number.read '0' (mark :: rest) =
      .error ⟨['0', mark],
        .fault (.invalidNumber (String.ofList ['0', mark]) (.missingDigits radix))⟩ := by
  have nothing := takeWhile_of_maximalRun
    (run.congr fun character => (isDigit_iff radix character).symm)
  rw [read_of_marked announced, readMarked]
  exact if_pos (List.isEmpty_iff.mpr nothing)

theorem defect_of_convert {radix : Radix} {digits more : List Char}
    (written : Number.Written rest radix digits (first :: more))
    (failed : Number.convert radix digits first more = .error flaw) :
    Defect policy (first :: more ++ rest) flaw := by
  unfold Number.convert at failed
  split at failed
  · rename_i overlong
    obtain ⟨rfl, long⟩ := overlong
    obtain rfl := written.eq_of_decimal
    cases failed
    exact .tooManyDigits written long
  · rename_i counted
    rcases Nat.lt_or_ge largestInteger (Numeral.value radix digits) with large | small
    · rw [Number.ofDigits_of_large large] at failed
      cases failed
      refine .outOfRange written ?_ large
      intro decimal
      exact Nat.not_lt.mp fun long => counted ⟨decimal, long⟩
    · rw [Number.ofDigits_of_small small] at failed
      cases failed

theorem defect_of_readNumber (digit : first ∈ Radix.decimal.digits)
    (failed : Number.read first rest = .error flaw) : Defect policy (first :: rest) flaw := by
  rcases Number.exists_written_or_missing digit rest with
    ⟨radix, digits, more, after, rfl, written⟩ | ⟨radix, mark, after, rfl, rfl, announced, run⟩
  · rw [Number.read_of_written written] at failed
    exact defect_of_convert written failed
  · rw [Number.read_of_missing announced run] at failed
    cases failed
    exact .missingDigits announced run

/-! ## Lexemes -/

/-- Only string literals and integer literals can be begun without being completed. -/
theorem quote_or_digit_of_read (failed : read first rest = .error flaw) :
    first = '\x22' ∨ first ∈ Radix.decimal.digits := by
  unfold read at failed
  split at failed
  · cases failed
  split at failed
  · cases failed
  split at failed
  · rename_i quote
    exact .inl quote
  split at failed
  · rename_i digit
    exact .inr ((Number.isDigit_iff .decimal first).mp digit)
  split at failed
  · cases failed
  · cases failed

theorem defect_of_read (failed : read first rest = .error flaw) :
    Defect policy (first :: rest) flaw := by
  rcases quote_or_digit_of_read failed with rfl | digit
  · rw [read_string, StringLiteral.read] at failed
    split at failed
    · cases failed
    · rename_i unclosed
      cases failed
      exact .openString unclosed
  · rw [read_number digit] at failed
    exact defect_of_readNumber digit failed

/-- A policy adds one failure to those of reading: it rejects characters that are dropped. -/
theorem readUnder_error_cases (failed : readUnder policy first rest = .error flaw) :
    read first rest = .error flaw ∨
      ∃ lexeme, read first rest = .ok lexeme ∧ lexeme.content = .dropped ∧ policy = .reject ∧
        flaw = ⟨[], .fault (.invalidCharacter first)⟩ := by
  unfold readUnder at failed
  split at failed
  · rename_i found readFailed
    cases failed
    exact .inl readFailed
  · rename_i lexeme found
    split at failed
    · cases failed
    · rename_i refused
      cases failed
      simp only [admittedBy, Bool.or_eq_true, decide_eq_true_eq, not_or, ne_eq,
        Decidable.not_not] at refused
      obtain ⟨notSkipped, dropped⟩ := refused
      cases policy with
      | skip => exact absurd rfl notSkipped
      | reject => exact .inr ⟨lexeme, found, dropped, rfl, rfl⟩

/-- Where no lexeme can be read there is a defect, and it is what is reported. -/
theorem defect_of_readUnder (failed : readUnder policy first rest = .error flaw) :
    Defect policy (first :: rest) flaw := by
  rcases readUnder_error_cases failed with readFailed | ⟨lexeme, found, dropped, rejected, rfl⟩
  · exact defect_of_read readFailed
  · rcases read_matches found with ⟨shape, fits⟩ | ⟨_, nothing⟩
    · exact absurd dropped fits.content_ne_dropped
    · exact .unknown rejected nothing

end LuneSyntax.Lexeme
