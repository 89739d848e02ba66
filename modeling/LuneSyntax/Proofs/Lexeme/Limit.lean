import LuneSyntax.Proofs.Lexeme.Boundary
import LuneSyntax.Proofs.Lexeme.Defect

/-!
# The limit of the reader

A scan fails at the first boundary behind which no lexeme can be read. All causes of such a failure
are faults of the language but one: a run of decimal digits that is longer than the limit, whatever
its value.
-/

set_option autoImplicit false

namespace LuneSyntax

namespace Lexeme

theorem readUnder_of_written {policy : UnknownPolicy} {radix : Radix} {first : Char}
    {digits more rest : List Char} {flaw : Flaw}
    (written : Number.Written rest radix digits (first :: more))
    (failed : Number.convert radix digits first more = .error flaw) :
    readUnder policy first (more ++ rest) = .error flaw := by
  obtain ⟨digit, others, same, listed⟩ := written.exists_digit
  obtain ⟨rfl, rfl⟩ := List.cons.inj same
  rw [readUnder, read_number listed, Number.read_of_written written, failed]

/-- The reader gives up only at a run of decimal digits that is longer than the limit. -/
theorem exists_run_of_readUnder {policy : UnknownPolicy} {first : Char}
    {rest consumed : List Char} {count : Nat}
    (failed : readUnder policy first rest = .error ⟨consumed, .tooManyDigits count⟩) :
    ∃ run after, first :: rest = run ++ after ∧ Number.Written after .decimal run run ∧
      digitLimit < run.length := by
  have defect := defect_of_readUnder failed
  generalize first :: rest = text at defect
  cases defect with
  | tooManyDigits written long => exact ⟨_, _, rfl, written, long⟩

/-! ## Scans that fail -/

section Flaws

variable {policy : UnknownPolicy} {front : List Lexeme} {first : Char} {rest : List Char}
  {flaw : Flaw}

theorem Cut.lex_error (cut : Cut policy (first :: rest) front)
    (failed : readUnder policy first rest = .error flaw) :
    lex policy (textOf front ++ first :: rest) = ⟨front, some flaw⟩ := by
  rw [cut.lex_eq, lex, failed, Lexing.behind, List.append_nil]

theorem Cut.scan_error (cut : Cut policy (first :: rest) front)
    (failed : readUnder policy first rest = .error flaw) :
    scan policy (textOf front ++ first :: rest) =
      .error ⟨flaw.cause, Place.start.after (textOf front)⟩ := by
  rw [scan, cut.lex_error failed]
  rfl

end Flaws

end Lexeme

theorem exists_cut_of_flaw {policy : UnknownPolicy} {source : List Char} {flaw : Lexeme.Flaw}
    (flawed : (lex policy source).flaw = some flaw) :
    ∃ front first rest, source = Lexeme.textOf front ++ first :: rest ∧
      Lexeme.Cut policy (first :: rest) front ∧
      Lexeme.readUnder policy first rest = .error flaw := by
  obtain ⟨unread, split, cut, nothing, same⟩ := Lexeme.exists_cut_of_lex policy source
  rw [flawed] at same
  cases unread with
  | nil =>
      rw [lex] at same
      cases same
  | cons first rest =>
      refine ⟨_, first, rest, split, cut, ?_⟩
      rw [lex] at nothing same
      cases read : Lexeme.readUnder policy first rest with
      | error other =>
          rw [read] at same
          exact congrArg Except.error (Option.some.inj same)
      | ok lexeme =>
          rw [read] at nothing
          cases nothing

/-- A scan that fails has cut the source up to a lexeme that cannot be read. -/
theorem exists_cut_of_scan_error {policy : UnknownPolicy} {source : List Char}
    {failure : ScanFailure} (failed : scan policy source = .error failure) :
    ∃ front first rest flaw, source = Lexeme.textOf front ++ first :: rest ∧
      Lexeme.Cut policy (first :: rest) front ∧
      Lexeme.readUnder policy first rest = .error flaw ∧
      failure = ⟨flaw.cause, Place.start.after (Lexeme.textOf front)⟩ := by
  obtain ⟨flaw, flawed, _⟩ := scan_eq_error_iff.mp failed
  obtain ⟨front, first, rest, split, cut, read⟩ := exists_cut_of_flaw flawed
  rw [split, cut.scan_error read] at failed
  exact ⟨front, first, rest, flaw, split, cut, read, (Except.error.inj failed).symm⟩

/-- At a boundary of the source a run of decimal digits begins that is longer than the limit. -/
def MeetsOverlongRun (policy : UnknownPolicy) (source : List Char) : Prop :=
  ∃ position run rest, Boundary policy source position ∧ source.drop position = run ++ rest ∧
    Lexeme.Number.Written rest .decimal run run ∧ Lexeme.digitLimit < run.length

section Numbers

variable {policy : UnknownPolicy} {source : List Char} {position : Nat}

/-- A scan fails at a boundary if no lexeme can be read there. -/
theorem Boundary.scan_error (boundary : Boundary policy source position) {first : Char}
    {rest : List Char} {flaw : Lexeme.Flaw} (here : source.drop position = first :: rest)
    (failed : Lexeme.readUnder policy first rest = .error flaw) :
    scan policy source = .error ⟨flaw.cause, Place.start.after (source.take position)⟩ := by
  obtain ⟨front, behind, rfl, cut, rfl⟩ := boundary_iff.mp boundary
  rw [List.drop_left] at here
  subst here
  rw [List.take_left]
  exact cut.scan_error failed

/-- A scan fails at the first integer literal whose digits are not accepted. -/
theorem Boundary.scan_number (boundary : Boundary policy source position) {radix : Radix}
    {digits more rest : List Char} {first : Char} {flaw : Lexeme.Flaw}
    (here : source.drop position = (first :: more) ++ rest)
    (written : Lexeme.Number.Written rest radix digits (first :: more))
    (failed : Lexeme.Number.convert radix digits first more = .error flaw) :
    scan policy source = .error ⟨flaw.cause, Place.start.after (source.take position)⟩ :=
  boundary.scan_error here (Lexeme.readUnder_of_written written failed)

theorem Boundary.scan_overlong (boundary : Boundary policy source position)
    {run rest : List Char} (here : source.drop position = run ++ rest)
    (written : Lexeme.Number.Written rest .decimal run run)
    (long : Lexeme.digitLimit < run.length) :
    scan policy source =
      .error ⟨.tooManyDigits run.length, Place.start.after (source.take position)⟩ := by
  obtain ⟨first, more, rfl, _⟩ := written.exists_digit
  have failed : Lexeme.Number.convert .decimal (first :: more) first more =
      .error ⟨first :: more, .tooManyDigits (first :: more).length⟩ := if_pos ⟨rfl, long⟩
  exact boundary.scan_number here written failed

theorem Boundary.scan_large (boundary : Boundary policy source position) {radix : Radix}
    {digits text rest : List Char} (here : source.drop position = text ++ rest)
    (written : Lexeme.Number.Written rest radix digits text)
    (short : radix = .decimal → digits.length ≤ Lexeme.digitLimit)
    (large : largestInteger < Numeral.value radix digits) :
    scan policy source =
      .error ⟨.fault (.invalidNumber (String.ofList text) .outOfRange),
        Place.start.after (source.take position)⟩ := by
  obtain ⟨first, more, rfl, _⟩ := written.exists_digit
  have failed : Lexeme.Number.convert radix digits first more =
      .error ⟨first :: more,
        .fault (.invalidNumber (String.ofList (first :: more)) .outOfRange)⟩ := by
    rw [Lexeme.Number.convert, if_neg fun both => Nat.not_le.mpr both.2 (short both.1),
      Lexeme.Number.ofDigits_of_large large]
  exact boundary.scan_number here written failed

end Numbers

/-- A cause that is no fault of the language is found exactly at an overlong run. -/
theorem scan_tooManyDigits_iff {policy : UnknownPolicy} {source : List Char} :
    (∃ count place, scan policy source = .error ⟨.tooManyDigits count, place⟩) ↔
      MeetsOverlongRun policy source := by
  constructor
  · rintro ⟨count, place, failed⟩
    obtain ⟨front, first, rest, ⟨consumed, cause⟩, rfl, cut, readFailed, same⟩ :=
      exists_cut_of_scan_error failed
    obtain ⟨rfl, _⟩ := ScanFailure.mk.inj same
    obtain ⟨run, after, split, written, long⟩ := Lexeme.exists_run_of_readUnder readFailed
    refine ⟨_, run, after, boundary_iff.mpr ⟨front, _, rfl, cut, rfl⟩, ?_, written, long⟩
    rw [List.drop_left, split]
  · rintro ⟨position, run, rest, boundary, here, written, long⟩
    exact ⟨_, _, boundary.scan_overlong here written long⟩

end LuneSyntax
