import LuneSyntax.Proofs.Analysis.LineNumbers
import LuneSyntax.Proofs.Lexeme.Decomposition
import LuneSyntax.Proofs.Source.Session

/-!
# Failed scans

A scanner whose full scan has failed holds the tokens of the source in front of the lexeme at
fault, and nothing of that lexeme. Its window begins there, and how far the window reaches depends
on the cause. Scanning again changes nothing.
-/

set_option autoImplicit false

namespace LuneSyntax

/-- Up to where a lexeme at fault has been passed. An open string goes up to the end, the text of
an integer literal is what has been passed of it, and an invalid character has not been passed. -/
inductive StopsAt (source : List Char) (start stop : Nat) : Lexeme.Cause → Prop where
  | openString : stop = source.length →
      StopsAt source start stop (.fault .unterminatedString)
  | number {text : String} {fault : NumberFault} :
      (source.take stop).drop start = text.toList →
      StopsAt source start stop (.fault (.invalidNumber text fault))
  | character {character : Char} : stop = start → source[start]? = some character →
      StopsAt source start stop (.fault (.invalidCharacter character))
  | overlong {run : List Char} : (∀ digit ∈ run, digit ∈ Radix.decimal.digits) →
      (source.take stop).drop start = run → StopsAt source start stop (.tooManyDigits run.length)

/-- How a scanner stands behind a failed scan. It has recorded the tokens of the source in front of
its window, without the end of the input, and the failure is placed where the window begins. -/
structure Scanner.HaltsWith (scanner : Scanner) (failure : ScanFailure) (reached : Scanner) :
    Prop where
  source : reached.source = scanner.source
  policy : reached.policy = scanner.policy
  fails : FailsAt scanner.policy scanner.source failure
  place : failure.place.offset = reached.start
  recorded : ∃ stream, LuneSyntax.scan scanner.policy (scanner.source.take reached.start) =
    .ok stream ∧ reached.tokens = stream.body
  before : ∀ token ∈ reached.tokens, token.stop ≤ (reached.start : Int)
  window : reached.start ≤ reached.position ∧ reached.position ≤ scanner.source.length
  stops : StopsAt scanner.source reached.start reached.position failure.cause
  again : reached.scan = (.error failure, reached)

namespace Lexeme

variable {policy : UnknownPolicy} {flaw : Flaw}

theorem drop_take_left (front consumed rest : List Char) :
    ((front ++ (consumed ++ rest)).take (front.length + consumed.length)).drop front.length =
      consumed := by
  rw [List.drop_take, Nat.add_sub_cancel_left, List.drop_left, List.take_left]

theorem Defect.consumed_prefix {text : List Char} (defect : Defect policy text flaw) :
    flaw.consumed <+: text := by
  cases defect with
  | openString _ => exact List.prefix_refl _
  | missingDigits _ _ => exact List.prefix_append ['0', _] _
  | outOfRange _ _ _ => exact List.prefix_append _ _
  | tooManyDigits _ _ => exact List.prefix_append _ _
  | unknown _ _ => exact List.nil_prefix

theorem Defect.stopsAt {text : List Char} (defect : Defect policy text flaw) (front : List Char) :
    StopsAt (front ++ text) front.length (front.length + flaw.consumed.length) flaw.cause := by
  cases defect with
  | openString _ => exact .openString List.length_append.symm
  | missingDigits _ _ =>
      refine .number ?_
      rw [String.toList_ofList]
      exact drop_take_left front ['0', _] _
  | outOfRange _ _ _ =>
      refine .number ?_
      rw [String.toList_ofList]
      exact drop_take_left front _ _
  | tooManyDigits written _ =>
      refine .overlong ?_ (drop_take_left front _ _)
      cases written with
      | plain _ run _ => exact run.1
  | unknown _ _ => exact .character rfl (by simp)

end Lexeme

namespace Scanner

variable {scanner reached : Scanner} {failure : ScanFailure}

theorem exists_cut_of_failed (failed : scanner.scan = (.error failure, reached)) :
    ∃ front first rest flaw, scanner.source = Lexeme.textOf front ++ first :: rest ∧
      Lexeme.Cut scanner.policy (first :: rest) front ∧
      Lexeme.readUnder scanner.policy first rest = .error flaw ∧
      failure = ⟨flaw.cause, Place.start.after (Lexeme.textOf front)⟩ ∧
      reached =
        { scanner with
          tokens := Lexeme.tokensFrom .start front
          start := (Lexeme.textOf front).length
          position := (Lexeme.textOf front).length + flaw.consumed.length
          line := 1 + (Lexeme.textOf front).count '\n' + flaw.consumed.count '\n' } := by
  have found : LuneSyntax.scan scanner.policy scanner.source = .error failure := by
    rw [← fst_scan, failed]
  obtain ⟨front, first, rest, flaw, split, cut, read, place⟩ := exists_cut_of_scan_error found
  have stopped := cut.lex_error read
  rw [← split] at stopped
  refine ⟨front, first, rest, flaw, split, cut, read, place, ?_⟩
  simp only [scan, stopped, Prod.mk.injEq] at failed
  rw [← failed.2, past, Lexing.stop, Lexeme.start_after]
  rfl

/-- A full scan that fails, whatever was done with the scanner before, leaves the tokens of the
text in front of the lexeme at fault. The window begins at that lexeme, which is where the failure
is reported, and another full scan fails in the same way and leaves the same scanner. -/
theorem failed_scan_keeps_prefix (failed : scanner.scan = (.error failure, reached)) :
    scanner.HaltsWith failure reached := by
  have found : LuneSyntax.scan scanner.policy scanner.source = .error failure := by
    rw [← fst_scan, failed]
  obtain ⟨front, first, rest, flaw, split, cut, read, rfl, rfl⟩ := exists_cut_of_failed failed
  have defect := Lexeme.defect_of_readUnder read
  have passed : flaw.consumed.length ≤ (first :: rest).length := defect.consumed_prefix.length_le
  obtain ⟨stream, scanned, body⟩ := cut.scan_front
  exact
    { source := rfl
      policy := rfl
      fails := failsAt_of_scan found
      place := by rw [Lexeme.start_after]
      recorded := ⟨stream, by rw [split, List.take_left, scanned], body.symm⟩
      before := by
        intro token member
        obtain ⟨_, _, above⟩ := Lexeme.span_of_mem_tokensFrom member
        rwa [Lexeme.start_after] at above
      window := by
        rw [split, List.length_append]
        exact ⟨Nat.le_add_right _ _, Nat.add_le_add_left passed _⟩
      stops := by
        rw [split]
        exact defect.stopsAt _
      -- A full scan looks at nothing but the source and the policy, which are the same.
      again := failed }

/-- A scanner that was moved by hand meets a radix mark without digits on the second line. -/
theorem failed_scan_keeps_prefix_radix_mark :
    let name : Token := ⟨.identifier, some (.text "a"), 0, 1, 1⟩
    let lineBreak : Token := ⟨.newline, none, 1, 2, 1⟩
    let scanner : Scanner :=
      { source := ['a', '\n', '0', 'x', '+'], policy := .reject, position := 4 }
    let failure : ScanFailure := ⟨.fault (.invalidNumber "0x" (.missingDigits .hexadecimal)), 2, 2⟩
    let reached : Scanner :=
      { scanner with tokens := [name, lineBreak], start := 2, position := 4, line := 2 }
    scanner.scan = (.error failure, reached) ∧ scanner.HaltsWith failure reached := by
  intro name lineBreak scanner failure reached
  have failed : scanner.scan = (.error failure, reached) := by cbv
  exact ⟨failed, failed_scan_keeps_prefix failed⟩

end Scanner

end LuneSyntax
