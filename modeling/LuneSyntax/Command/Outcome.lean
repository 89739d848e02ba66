import LuneSyntax.Analysis.Basic
import LuneSyntax.Command.Arguments
import LuneSyntax.Text.ControlSequence

/-!
# Outcomes

What a run of the command leaves behind: an exit code and the two output streams. Printed lines
are freed from terminal control sequences. Wrong usage is answered with a hint at the help text.
-/

set_option autoImplicit false

namespace LuneSyntax.Command

inductive ExitCode where
  | success
  | buildError
  | invalidArguments
  | internalError
  deriving DecidableEq, Repr

namespace ExitCode

def all : List ExitCode := [.success, .buildError, .invalidArguments, .internalError]

def number : ExitCode → Nat
  | .success => 0
  | .buildError => 1
  | .invalidArguments => 2
  | .internalError => 3

def label : ExitCode → String
  | .success => "SUCCESS"
  | .buildError => "BUILD_ERROR"
  | .invalidArguments => "INVALID_ARGS"
  | .internalError => "INTERNAL_ERROR"

end ExitCode

structure Outcome where
  exit : ExitCode
  stdout : String
  stderr : String
  deriving DecidableEq, Repr

def printed (text : String) : String :=
  ControlSequence.plain (text ++ "\n")

def printedLines (texts : List String) : String :=
  String.join (texts.map printed)

def version : String := "0.1.0"

def usage : String := "Usage: lunec [OPTIONS] INPUT_FILE"

def helpText : String :=
  "\n".intercalate
    [usage,
     "",
     "  Tokenize and parse a Lune source file.",
     "",
     "  INPUT_FILE is the Lune source file to process.",
     "",
     "  Examples:",
     "      lunec program.lune              # Print S-expressions",
     "      lunec --tokens program.lune     # Print tokens",
     "      lunec --tokens --ast prog.lune  # Print both",
     "",
     "Options:",
     "  --tokens       Print the token stream",
     "  --ast          Print the parsed statements as S-expressions (default)",
     "  --strict       Treat unknown characters as errors instead of skipping them",
     "  -v, --verbose  Verbose output",
     "  --version      Show the version and exit.",
     "  --help         Show this message and exit."]

/-- What can be wrong with the way in which the command is called. -/
inductive UsageFault where
  | argument (fault : ArgumentFault)
  | missingOperand
  | missingFile (path : String)
  | directory (path : String)
  | extraOperands (operands : List String)
  deriving DecidableEq, Repr

namespace UsageFault

def message : UsageFault → String
  | .argument (.unknownSwitch name) => "No such option: " ++ name
  | .argument (.valueRefused name) =>
    "Option " ++ Quoted.write name ++ " does not take a value."
  | .missingOperand => "Missing argument 'INPUT_FILE'."
  | .missingFile path =>
    "Invalid value for 'INPUT_FILE': File " ++ Quoted.write path ++ " does not exist."
  | .directory path =>
    "Invalid value for 'INPUT_FILE': File " ++ Quoted.write path ++ " is a directory."
  | .extraOperands operands =>
    "Got unexpected extra argument" ++ (if operands.length = 1 then " (" else "s (") ++
      " ".intercalate operands ++ ")"

/-- Whether the usage line is shown. A switch that was given a value is refused without it. -/
def showsUsage : UsageFault → Bool
  | .argument (.valueRefused _) => false
  | _ => true

def outcome (fault : UsageFault) : Outcome :=
  let introduction :=
    if fault.showsUsage then printedLines [usage, "Try 'lunec --help' for help.", ""] else ""
  ⟨.invalidArguments, "", introduction ++ printed ("Error: " ++ fault.message)⟩

end UsageFault

/-- Why a run ends without a result. An unforeseen failure is known by its message only. -/
inductive RunFailure where
  | diagnosed (diagnostic : Diagnostic)
  | unusableInput (message : String)
  | encoding (defect : Utf8.Defect)
  | unforeseen (message : String)
  deriving DecidableEq, Repr

namespace RunFailure

def ofFileFailure : Analysis.FileFailure → RunFailure
  | .missing path => .unusableInput (Analysis.missingMessage path)
  | .directory path => .unforeseen (Analysis.directoryMessage path)
  | .encoding defect => .encoding defect
  | .source (.diagnosed diagnostic) => .diagnosed diagnostic
  | .source (.tooManyDigits digits) => .unforeseen (Lexeme.digitLimitMessage digits)

def exitCode : RunFailure → ExitCode
  | .diagnosed _ => .buildError
  | .unusableInput _ => .invalidArguments
  | .encoding _ => .invalidArguments
  | .unforeseen _ => .internalError

def message : RunFailure → String
  | .diagnosed diagnostic => diagnostic.text
  | .unusableInput message => "Error: " ++ message
  | .encoding defect => "Error: source is not valid UTF-8: " ++ defect.message
  | .unforeseen message => "Internal error: " ++ message

/-- The line under which a verbose run lists the calls that led to an unforeseen failure. -/
def traceHeading : String := "Traceback (most recent call last):\n"

def report (verbose : Bool) (failure : RunFailure) : String :=
  printed failure.message ++
    match failure with
    | .unforeseen _ => if verbose then traceHeading else ""
    | _ => ""

end RunFailure

end LuneSyntax.Command
