import LuneSyntax.Analysis.Basic
import LuneSyntax.Proofs.Lexeme.Limit

/-!
# Located failures

Every failure of an analysis of a source is a fault of a lexeme or of the syntax, reported with its
place, as long as no run of decimal digits is longer than the limit. Such a run is reported without
a place, whatever its value, and that is the only exception.
-/

set_option autoImplicit false

namespace LuneSyntax

/-- A failure that is a fault of the language together with its place. -/
inductive Failure.Located : Failure → Prop where
  | lexical {fault : LexicalFault} {line position : Int} :
      Located (.diagnosed (.lexical fault line position))
  | syntactic {fault : SyntaxFault} {position : Int} {token : Token} :
      Located (.diagnosed (.syntactic fault position token))

theorem located_of_parse {stream : TokenStream} {diagnostic : Diagnostic}
    (failed : stream.parse = .error diagnostic) : (Failure.diagnosed diagnostic).Located := by
  unfold TokenStream.parse at failed
  split at failed
  · cases failed
  · cases failed
    exact .syntactic

theorem ScanFailure.located_iff {failure : ScanFailure} :
    failure.failure.Located ↔ ∃ fault, failure.cause = .fault fault := by
  obtain ⟨cause, place⟩ := failure
  cases cause with
  | fault fault => exact ⟨fun _ => ⟨fault, rfl⟩, fun _ => .lexical⟩
  | tooManyDigits digits =>
      constructor
      · intro located
        cases located
      · rintro ⟨fault, same⟩
        cases same

theorem located_or_scan_of_parseSource {policy : UnknownPolicy} {source : List Char}
    {failure : Failure} (failed : parseSource policy source = .error failure) :
    failure.Located ∨ ∃ scanFailure, scan policy source = .error scanFailure ∧
      failure = scanFailure.failure := by
  rcases scan_or_parse_of_parseSource failed with lexical | ⟨_, _, _, syntactic, rfl⟩
  · exact .inr lexical
  · exact .inl (located_of_parse syntactic)

theorem parseSource_of_scan_error {policy : UnknownPolicy} {source : List Char}
    {failure : ScanFailure} (failed : scan policy source = .error failure) :
    parseSource policy source = .error failure.failure := by
  rw [parseSource, failed]

/-- An analysis fails as parsing its source does. -/
theorem ofSource_eq_error_iff {options : Analysis.Options} {name : String} {source : List Char}
    {failure : Failure} :
    (Analysis.ofSource options name source).outcome = .error failure ↔
      parseSource options.policy source = .error failure := by
  unfold Analysis.ofSource parseSource scan
  dsimp only
  cases (lex options.policy source).outcome with
  | error scanFailure => simp
  | ok stream => cases parsed : stream.parse <;> simp [parsed]

theorem scan_fault_iff {policy : UnknownPolicy} {source : List Char} :
    (∀ failure, scan policy source = .error failure → ∃ fault, failure.cause = .fault fault) ↔
      ¬ MeetsOverlongRun policy source := by
  rw [← scan_tooManyDigits_iff]
  constructor
  · rintro faults ⟨count, place, failed⟩
    obtain ⟨fault, same⟩ := faults _ failed
    cases same
  · rintro never ⟨cause, place⟩ failed
    cases cause with
    | fault fault => exact ⟨fault, rfl⟩
    | tooManyDigits count => exact absurd ⟨count, place, failed⟩ never

theorem parseSource_located_iff {policy : UnknownPolicy} {source : List Char} :
    (∀ failure, parseSource policy source = .error failure → failure.Located) ↔
      ¬ MeetsOverlongRun policy source := by
  rw [← scan_fault_iff]
  constructor
  · intro located failure failed
    exact ScanFailure.located_iff.mp (located _ (parseSource_of_scan_error failed))
  · intro faults failure failed
    rcases located_or_scan_of_parseSource failed with located | ⟨scanFailure, scanFailed, rfl⟩
    · exact located
    · exact ScanFailure.located_iff.mpr (faults scanFailure scanFailed)

theorem pow_le_value_ones (count : Nat) :
    10 ^ count ≤ Numeral.value .decimal (List.replicate (count + 1) '1') := by
  induction count with
  | zero => decide
  | succ count ih =>
      rw [List.replicate_succ', Numeral.value_append_singleton, Nat.pow_succ, Nat.mul_comm]
      exact Nat.le_add_right_of_le (Nat.mul_le_mul_left 10 ih)

theorem largestInteger_lt_value_ones {count : Nat} (many : 10 ≤ count) :
    largestInteger < Numeral.value .decimal (List.replicate (count + 1) '1') :=
  calc
    largestInteger < 10 ^ 10 := by decide
    _ ≤ 10 ^ count := Nat.pow_le_pow_right (by decide) many
    _ ≤ Numeral.value .decimal (List.replicate (count + 1) '1') := pow_le_value_ones count

/-- Scans, programs and analyses fail with faults of the language alone exactly if the source has
no overlong run of decimal digits at a boundary. Every other literal that is too large is reported
as an invalid number, at its place. -/
theorem located_iff_not_overlong (policy : UnknownPolicy) (source : List Char) :
    ((∀ failure, scan policy source = .error failure → ∃ fault, failure.cause = .fault fault) ↔
      ¬ MeetsOverlongRun policy source) ∧
    ((∀ failure, parseSource policy source = .error failure → failure.Located) ↔
      ¬ MeetsOverlongRun policy source) ∧
    (∀ options name, options.policy = policy →
      ((∀ failure, (Analysis.ofSource options name source).outcome = .error failure →
        failure.Located) ↔ ¬ MeetsOverlongRun policy source)) ∧
    ∀ position radix digits text rest, Boundary policy source position →
      source.drop position = text ++ rest → Lexeme.Number.Written rest radix digits text →
      largestInteger < Numeral.value radix digits →
      scan policy source = .error ⟨
        if radix = .decimal ∧ Lexeme.digitLimit < digits.length then .tooManyDigits digits.length
        else .fault (.invalidNumber (String.ofList text) .outOfRange),
        Place.start.after (source.take position)⟩ := by
  refine ⟨scan_fault_iff, parseSource_located_iff, ?_, ?_⟩
  · rintro options name rfl
    simp only [ofSource_eq_error_iff]
    exact parseSource_located_iff
  · intro position radix digits text rest boundary here written large
    by_cases overlong : radix = .decimal ∧ Lexeme.digitLimit < digits.length
    · obtain ⟨rfl, long⟩ := overlong
      obtain rfl := written.eq_of_decimal
      rw [if_pos ⟨rfl, long⟩]
      exact boundary.scan_overlong here written long
    · rw [if_neg overlong]
      refine boundary.scan_large here written (fun decimal => ?_) large
      exact Nat.not_lt.mp fun long => overlong ⟨decimal, long⟩

/-- A literal of more digits than the limit is too large, but is not reported as such. -/
theorem not_located_ones :
    let source := List.replicate 4301 '1'
    scan .skip source = .error ⟨.tooManyDigits 4301, .start⟩ ∧
      parseSource .skip source = .error (.tooManyDigits 4301) ∧
      ¬ (Failure.tooManyDigits 4301).Located ∧
      largestInteger < Numeral.value .decimal source := by
  intro source
  have digits : ∀ character ∈ source, character ∈ Radix.decimal.digits := by
    intro character member
    rw [List.eq_of_mem_replicate member]
    decide
  have size : source.length = 4301 := List.length_replicate
  have written : Lexeme.Number.Written [] .decimal source source := by
    refine .plain (List.ne_nil_of_length_pos (by omega)) ⟨digits, ?_⟩ ?_
    · intro next member
      cases member
    · intro _ mark member
      cases member
  have boundary : Boundary .skip source 0 := ⟨[], List.nil_prefix, rfl⟩
  have scanned := boundary.scan_overlong (List.append_nil source).symm written
    (by rw [size]; decide)
  rw [size] at scanned
  exact ⟨scanned, parseSource_of_scan_error scanned, (fun located => nomatch located),
    largestInteger_lt_value_ones (by decide)⟩

end LuneSyntax
