import LuneSyntax.Proofs.Analysis.FileTree
import LuneSyntax.Proofs.Analysis.Located
import LuneSyntax.Proofs.Command.Arguments
import LuneSyntax.Proofs.Command.Printing
import LuneSyntax.Proofs.Text.Utf8

/-!
# Runs of the command

What the bytes of a file make of a run: its exit code, and everything that it prints. Only a source
that is parsed has output, and nothing is printed before it is known to be one.
-/

set_option autoImplicit false

namespace LuneSyntax

/-- The path names a file with these bytes, as it is given and as it is looked at. -/
structure Names (lookup : String → FileEntry) (path : String) (bytes : List UInt8) : Prop where
  given : lookup path = .file bytes
  normalized : lookup (String.ofList (Path.normalize path.toList)) = .file bytes

theorem FileTree.names {tree : FileTree} {path : String} {bytes : List UInt8}
    (found : tree.lookup path = .file bytes) : Names tree.lookup path bytes :=
  ⟨found, lookup_normalize found⟩

/-! ## What becomes of a source -/

section Sources

variable {policy : UnknownPolicy} {source : List Char} {stream : TokenStream}
  {statements : List Stmt}

theorem parseSource_tooManyDigits_iff :
    (∃ digits, parseSource policy source = .error (.tooManyDigits digits)) ↔
      MeetsOverlongRun policy source := by
  rw [← scan_tooManyDigits_iff]
  constructor
  · rintro ⟨digits, failed⟩
    rcases located_or_scan_of_parseSource failed with located | ⟨⟨cause, place⟩, scanFailed, same⟩
    · cases located
    · cases cause with
      | fault fault => cases same
      | tooManyDigits count => exact ⟨count, place, scanFailed⟩
  · rintro ⟨count, place, failed⟩
    exact ⟨count, parseSource_of_scan_error failed⟩

theorem ofSource_of_parse (name : String) (scanned : scan policy source = .ok stream)
    (parsed : stream.parse = .ok statements) :
    (Analysis.ofSource ⟨policy, true⟩ name source).outcome = .ok ⟨name, stream, statements⟩ := by
  have outcome : (lex policy source).outcome = .ok stream := scanned
  simp only [Analysis.ofSource, outcome, parsed]
  rfl

end Sources

/-! ## What becomes of a file -/

/-- The exit codes that the bytes of a file can have. -/
inductive Fate (policy : UnknownPolicy) (bytes : List UInt8) : Nat → Prop where
  | parsed {text : List Char} {stream : TokenStream} {statements : List Stmt} :
      bytes = Utf8.encode text → scan policy (LineBreak.normalize text) = .ok stream →
      stream.parse = .ok statements → Fate policy bytes 0
  | diagnosed {text : List Char} {diagnostic : Diagnostic} :
      bytes = Utf8.encode text →
      parseSource policy (LineBreak.normalize text) = .error (.diagnosed diagnostic) →
      Fate policy bytes 1
  | undecodable : (∀ text, bytes ≠ Utf8.encode text) → Fate policy bytes 2
  | overlong {text : List Char} :
      bytes = Utf8.encode text → MeetsOverlongRun policy (LineBreak.normalize text) →
      Fate policy bytes 3

theorem exists_fate (policy : UnknownPolicy) (bytes : List UInt8) :
    ∃ code, Fate policy bytes code := by
  cases decoded : Utf8.decode bytes with
  | error defect => exact ⟨2, .undecodable (Utf8.decode_eq_error_iff.mp ⟨defect, decoded⟩)⟩
  | ok text =>
      have encoded := Utf8.decode_eq_ok_iff.mp decoded
      cases result : parseSource policy (LineBreak.normalize text) with
      | ok statements =>
          obtain ⟨stream, scanned, parsed⟩ := parseSource_eq_ok_iff_parse.mp result
          exact ⟨0, .parsed encoded scanned parsed⟩
      | error failure =>
          cases failure with
          | diagnosed diagnostic => exact ⟨1, .diagnosed encoded result⟩
          | tooManyDigits digits =>
              exact ⟨3, .overlong encoded (parseSource_tooManyDigits_iff.mp ⟨digits, result⟩)⟩

namespace Command

def policyOf (switches : List Switch) : UnknownPolicy :=
  if .strict ∈ switches then .reject else .skip

variable {lookup : String → FileEntry} {path : String} {bytes : List UInt8}
  {switches : List Switch} {arguments : List String}

theorem run_eq_process (asks : Asks arguments switches [path]) (names : Names lookup path bytes) :
    run lookup arguments = process ⟨switches, [path]⟩ lookup path := by
  have working : switches.find? Switch.answersAlone = none := by
    rw [List.find?_eq_none]
    intro switch member
    simp [asks.answersAlone switch member]
  rw [run, asks.read]
  simp only [working]
  rw [processOperands]
  simp only [names.given, if_pos]

/-- The analysis that the run makes of the file. -/
def analyzed (switches : List Switch) (lookup : String → FileEntry) (path : String) :
    Except Analysis.FileFailure Analysis :=
  (Analysis.ofFile ⟨policyOf switches, true⟩ lookup
    (String.ofList (Path.normalize path.toList))).outcome

section Analyzed

variable {text : List Char} (names : Names lookup path bytes)
include names

theorem analyzed_of_undecodable {defect : Utf8.Defect}
    (undecodable : Utf8.decode bytes = .error defect) :
    analyzed switches lookup path = .error (.encoding defect) := by
  rw [analyzed, Analysis.ofFile, String.toList_ofList, Path.normalize_normalize]
  simp only [names.normalized, undecodable]

theorem analyzed_of_error {failure : Failure} (encoded : bytes = Utf8.encode text)
    (failed : parseSource (policyOf switches) (LineBreak.normalize text) = .error failure) :
    analyzed switches lookup path = .error (.source failure) := by
  have sameFailure : parseSource (Analysis.Options.mk (policyOf switches) true).policy
      (LineBreak.normalize text) = .error failure := failed
  rw [analyzed, Analysis.ofFile, String.toList_ofList, Path.normalize_normalize]
  simp only [names.normalized, Utf8.decode_eq_ok_iff.mpr encoded,
    ofSource_eq_error_iff.mpr sameFailure]

theorem analyzed_of_parse {stream : TokenStream} {statements : List Stmt}
    (encoded : bytes = Utf8.encode text)
    (scanned : scan (policyOf switches) (LineBreak.normalize text) = .ok stream)
    (parsed : stream.parse = .ok statements) :
    analyzed switches lookup path =
      .ok ⟨String.ofList (Path.normalize path.toList), stream, statements⟩ := by
  rw [analyzed, Analysis.ofFile, String.toList_ofList, Path.normalize_normalize]
  simp only [names.normalized, Utf8.decode_eq_ok_iff.mpr encoded,
    ofSource_of_parse _ scanned parsed]

end Analyzed

/-! ## Processing -/

theorem policyOf_eq {operands : List String} :
    (if (Arguments.mk switches operands).has .strict = true then UnknownPolicy.reject else .skip) =
      policyOf switches := by
  simp only [has_iff]
  rfl

/-- What comes of the analysis is all that a run writes to its standard output. -/
theorem exists_process_eq (switches : List Switch) (lookup : String → FileEntry) (path : String) :
    ∃ logged, process ⟨switches, [path]⟩ lookup path =
      match analyzed switches lookup path with
      | .error failure => failed ⟨switches, [path]⟩ (.ofFileFailure failure) "" logged
      | .ok analysis =>
        match programListing ⟨switches, [path]⟩ analysis with
        | .error refused =>
          failed ⟨switches, [path]⟩ (.unforeseen refused.message)
            (tokenListing ⟨switches, [path]⟩ analysis) logged
        | .ok program =>
          ⟨.success, tokenListing ⟨switches, [path]⟩ analysis ++ program ++
            counts ⟨switches, [path]⟩ analysis, logged⟩ := by
  simp only [process, policyOf_eq]
  exact ⟨_, rfl⟩

theorem process_of_error {failure : Analysis.FileFailure}
    (unanalyzed : analyzed switches lookup path = .error failure) :
    (process ⟨switches, [path]⟩ lookup path).exit = (RunFailure.ofFileFailure failure).exitCode ∧
      (process ⟨switches, [path]⟩ lookup path).stdout = "" := by
  obtain ⟨logged, same⟩ := exists_process_eq switches lookup path
  rw [same, unanalyzed]
  exact ⟨rfl, rfl⟩

theorem process_of_ok {name : String} {stream : TokenStream} {statements : List Stmt}
    (succeeded : analyzed switches lookup path = .ok ⟨name, stream, statements⟩)
    (proper : ∀ stmt ∈ statements, stmt.Proper) :
    (process ⟨switches, [path]⟩ lookup path).exit = .success ∧
      (process ⟨switches, [path]⟩ lookup path).stdout =
        ended (outputLines switches stream statements) := by
  obtain ⟨logged, same⟩ := exists_process_eq switches lookup path
  rw [same, succeeded]
  simp only [programListing_eq proper, tokenListing_eq, counts_eq]
  rw [outputLines, ended_append, ended_append]
  exact ⟨trivial, rfl⟩

theorem exit_of_fate (names : Names lookup path bytes) {code : Nat}
    (fate : Fate (policyOf switches) bytes code) :
    (process ⟨switches, [path]⟩ lookup path).exit.number = code ∧
      (code ≠ 0 → (process ⟨switches, [path]⟩ lookup path).stdout = "") := by
  cases fate with
  | parsed encoded scanned parsed =>
      obtain ⟨exit, _⟩ := process_of_ok (analyzed_of_parse names encoded scanned parsed)
        (proper_of_parse scanned parsed)
      rw [exit]
      exact ⟨rfl, fun nonzero => absurd rfl nonzero⟩
  | diagnosed encoded failed =>
      obtain ⟨exit, stdout⟩ := process_of_error (analyzed_of_error names encoded failed)
      rw [exit]
      exact ⟨rfl, fun _ => stdout⟩
  | undecodable never =>
      obtain ⟨defect, undecodable⟩ := Utf8.decode_eq_error_iff.mpr never
      obtain ⟨exit, stdout⟩ := process_of_error (analyzed_of_undecodable names undecodable)
      rw [exit]
      exact ⟨rfl, fun _ => stdout⟩
  | overlong encoded met =>
      obtain ⟨digits, failed⟩ := parseSource_tooManyDigits_iff.mpr met
      obtain ⟨exit, stdout⟩ := process_of_error (analyzed_of_error names encoded failed)
      rw [exit]
      exact ⟨rfl, fun _ => stdout⟩

/-- The exit code of a run on a file tells what became of its bytes, and its output is that of the
source it holds, or nothing. -/
theorem run_of_file (asks : Asks arguments switches [path]) (names : Names lookup path bytes) :
    (∀ code, (run lookup arguments).exit.number = code ↔ Fate (policyOf switches) bytes code) ∧
      (∀ text stream statements, bytes = Utf8.encode text →
        scan (policyOf switches) (LineBreak.normalize text) = .ok stream →
        stream.parse = .ok statements →
        Prints switches stream statements (run lookup arguments).stdout) ∧
      ((run lookup arguments).exit.number ≠ 0 → (run lookup arguments).stdout = "") := by
  rw [run_eq_process asks names]
  have exit := fun code (fate : Fate (policyOf switches) bytes code) => exit_of_fate names fate
  refine ⟨fun code => ⟨?_, fun fate => (exit code fate).1⟩, ?_, ?_⟩
  · rintro rfl
    obtain ⟨code, fate⟩ := exists_fate (policyOf switches) bytes
    rw [(exit code fate).1]
    exact fate
  · intro text stream statements encoded scanned parsed
    have proper := proper_of_parse scanned parsed
    have succeeded := analyzed_of_parse names encoded scanned parsed
    rw [(process_of_ok succeeded proper).2]
    exact prints_ended proper
  · intro nonzero
    obtain ⟨code, fate⟩ := exists_fate (policyOf switches) bytes
    rw [(exit code fate).1] at nonzero
    exact (exit code fate).2 nonzero

/-- A declaration between flags, in a file that is named with a part too many. -/
theorem run_of_file_declaration :
    let bytes := Utf8.encode ['v', 'a', 'r', ' ', 'x', ':', 'i', 'n', 't', '=', '1']
    let lookup := (FileTree.empty.insert ['f'] (.file bytes)).lookup
    let switches := [Switch.ast, .verbose]
    let outcome := run lookup ["--ast", "./f", "-v"]
    Asks ["--ast", "./f", "-v"] switches ["./f"] ∧ Names lookup "./f" bytes ∧
      outcome.stdout = "(var x int 1)\nTokenized: 7 tokens\nParsed: 1 statements\n" ∧
      (∀ code, outcome.exit.number = code ↔ Fate (policyOf switches) bytes code) ∧
      (∀ text stream statements, bytes = Utf8.encode text →
        scan (policyOf switches) (LineBreak.normalize text) = .ok stream →
        stream.parse = .ok statements → Prints switches stream statements outcome.stdout) ∧
      (outcome.exit.number ≠ 0 → outcome.stdout = "") := by
  intro bytes lookup switches outcome
  have asks : Asks ["--ast", "./f", "-v"] switches ["./f"] :=
    .flag (by decide) (.operand (by decide) (.flag (by decide) .nil))
  have names : Names lookup "./f" bytes := FileTree.names (by decide +kernel)
  exact ⟨asks, names, by decide +kernel, run_of_file asks names⟩

end Command

end LuneSyntax
