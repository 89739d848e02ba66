import LuneSyntax.Analysis.Event
import LuneSyntax.Analysis.FileTree
import LuneSyntax.Grammar.Program
import LuneSyntax.Text.LineBreak
import LuneSyntax.Text.Utf8

/-!
# Analyses

An analysis takes a source to its tokens and statements. The first fault ends it. A source is
given as a text, or as a file that must be UTF-8 and may use any line ends.
-/

set_option autoImplicit false

namespace LuneSyntax

inductive Failure where
  | diagnosed (diagnostic : Diagnostic)
  | tooManyDigits (digits : Nat)
  deriving DecidableEq, Repr

def ScanFailure.failure (failure : ScanFailure) : Failure :=
  match failure.cause with
  | .fault fault => .diagnosed (.lexical fault failure.place.line failure.place.offset)
  | .tooManyDigits digits => .tooManyDigits digits

def parseSource (policy : UnknownPolicy) (source : List Char) : Except Failure (List Stmt) :=
  match scan policy source with
  | .error failure => .error failure.failure
  | .ok stream =>
    match stream.parse with
    | .error diagnostic => .error (.diagnosed diagnostic)
    | .ok statements => .ok statements

theorem parseSource_eq_ok_iff_parse {policy : UnknownPolicy} {source : List Char}
    {statements : List Stmt} :
    parseSource policy source = .ok statements ↔
      ∃ stream, scan policy source = .ok stream ∧ stream.parse = .ok statements := by
  unfold parseSource
  cases scan policy source with
  | error failure => simp
  | ok stream => cases parsed : stream.parse <;> simp [parsed]

/-- A source that fails, fails with its scan or with the parse of its tokens. -/
theorem scan_or_parse_of_parseSource {policy : UnknownPolicy} {source : List Char}
    {failure : Failure} (failed : parseSource policy source = .error failure) :
    (∃ cause, scan policy source = .error cause ∧ failure = cause.failure) ∨
      ∃ stream diagnostic, scan policy source = .ok stream ∧
        stream.parse = .error diagnostic ∧ failure = .diagnosed diagnostic := by
  unfold parseSource at failed
  cases scanned : scan policy source with
  | error cause =>
    rw [scanned] at failed
    exact .inl ⟨cause, rfl, (Except.error.inj failed).symm⟩
  | ok stream =>
    rw [scanned] at failed
    cases parsed : stream.parse with
    | error diagnostic =>
      simp only [parsed] at failed
      exact .inr ⟨stream, diagnostic, rfl, parsed, (Except.error.inj failed).symm⟩
    | ok statements =>
      simp only [parsed] at failed
      cases failed

namespace Analysis

/-- How sources are analyzed. The grammar sees line breaks even if they are not kept. -/
structure Options where
  policy : UnknownPolicy := .skip
  keepNewlines : Bool := true
  deriving DecidableEq, Repr

end Analysis

structure Analysis where
  name : String
  tokens : TokenStream
  statements : List Stmt
  deriving DecidableEq, Repr

structure Report (Error : Type) where
  events : List Event
  outcome : Except Error Analysis

namespace Analysis

/-- The name of a source that was given without one. -/
def unnamed : String := "<input>"

def ofSource (options : Options) (name : String) (source : List Char) : Report Failure :=
  let lexing := lex options.policy source
  let begun := Event.scanning name source.length :: lexing.events
  match lexing.outcome with
  | .error failure => ⟨begun, .error failure.failure⟩
  | .ok stream =>
    let going := begun ++ [.parsing name]
    match stream.parse with
    | .error diagnostic => ⟨going, .error (.diagnosed diagnostic)⟩
    | .ok statements =>
      let tokens := if options.keepNewlines then stream else stream.withoutNewlines
      ⟨going ++ [.parsed statements.length stream.size, .completed name statements.length],
        .ok ⟨name, tokens, statements⟩⟩

inductive FileFailure where
  | missing (path : String)
  | directory (path : String)
  | encoding (defect : Utf8.Defect)
  | source (failure : Failure)
  deriving DecidableEq, Repr

/-- Analyzes the file at a path. Nothing is reported before its content has been decoded. -/
def ofFile (options : Options) (lookup : String → FileEntry) (path : String) :
    Report FileFailure :=
  let name := String.ofList (Path.normalize path.toList)
  match lookup name with
  | .missing => ⟨[], .error (.missing path)⟩
  | .directory => ⟨[], .error (.directory name)⟩
  | .file bytes =>
    match Utf8.decode bytes with
    | .error defect => ⟨[], .error (.encoding defect)⟩
    | .ok text =>
      let report := ofSource options name (LineBreak.normalize text)
      ⟨report.events,
        match report.outcome with
        | .ok analysis => .ok analysis
        | .error failure => .error (.source failure)⟩

def missingMessage (path : String) : String :=
  "Source file not found: " ++ path

def directoryMessage (path : String) : String :=
  "[Errno 21] Is a directory: " ++ Quoted.write path

end Analysis

def Utf8.Defect.message (defect : Utf8.Defect) : String :=
  let position := Numeral.decimal defect.offset
  let subject :=
    if defect.length = 1 then
      "byte 0x" ++ String.ofList (Numeral.hexadecimal 2 defect.lead.toNat) ++ " in position " ++
        position
    else
      "bytes in position " ++ position ++ "-" ++
        Numeral.decimal (defect.offset + defect.length - 1 : Nat)
  "'utf-8' codec can't decode " ++ subject ++ ": " ++ defect.reason.message

end LuneSyntax
