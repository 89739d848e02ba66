import LuneSyntax.Command.Outcome
import LuneSyntax.Tree.SExpression

/-!
# Running the command

A run reads the arguments, checks them, analyzes the one file they name, and prints its tokens
or its S-expressions or both. Everything that the run sees of the file system is a look-up.
-/

set_option autoImplicit false

namespace LuneSyntax.Command

/-- The lines that a verbose run adds about the events of an analysis. -/
def log (arguments : Arguments) (events : List Event) : String :=
  if arguments.has .verbose then String.join (events.map Event.logLine) else ""

def tokenListing (arguments : Arguments) (analysis : Analysis) : String :=
  if arguments.has .tokens then printedLines (analysis.tokens.toList.map Token.display) else ""

/-- Whether the S-expressions are printed, which they are unless only tokens are asked for. -/
def showsProgram (arguments : Arguments) : Bool :=
  arguments.has .ast || !arguments.has .tokens

def programListing (arguments : Arguments) (analysis : Analysis) :
    Except SExpression.Unprintable String :=
  if showsProgram arguments then
    match SExpression.printProgram analysis.statements with
    | .error refused => .error refused
    | .ok text => .ok (if text.isEmpty then "" else printed text)
  else .ok ""

def counts (arguments : Arguments) (analysis : Analysis) : String :=
  if arguments.has .verbose then
    printedLines
      ["Tokenized: " ++ Numeral.decimal analysis.tokens.size ++ " tokens",
       "Parsed: " ++ Numeral.decimal analysis.statements.length ++ " statements"]
  else ""

def failed (arguments : Arguments) (failure : RunFailure) (stdout logged : String) : Outcome :=
  ⟨failure.exitCode, stdout, logged ++ failure.report (arguments.has .verbose)⟩

def process (arguments : Arguments) (lookup : String → FileEntry) (path : String) : Outcome :=
  let path := String.ofList (Path.normalize path.toList)
  let strict := arguments.has .strict
  let options : Analysis.Options := ⟨if strict then .reject else .skip, true⟩
  let report := Analysis.ofFile options lookup path
  let logged := log arguments (.processing path strict :: report.events)
  match report.outcome with
  | .error failure => failed arguments (.ofFileFailure failure) "" logged
  | .ok analysis =>
    let tokens := tokenListing arguments analysis
    match programListing arguments analysis with
    | .error refused => failed arguments (.unforeseen refused.message) tokens logged
    | .ok program => ⟨.success, tokens ++ program ++ counts arguments analysis, logged⟩

/-- Checks the operands: exactly one, which names a file. The file is checked first. -/
def processOperands (arguments : Arguments) (lookup : String → FileEntry) : Outcome :=
  match arguments.operands with
  | [] => UsageFault.missingOperand.outcome
  | path :: extra =>
    match lookup path with
    | .missing => (UsageFault.missingFile path).outcome
    | .directory => (UsageFault.directory path).outcome
    | .file _ =>
      if extra = [] then process arguments lookup path
      else (UsageFault.extraOperands extra).outcome

/-- The outcome of the command. Version and help are answered before any operand is looked at. -/
def run (lookup : String → FileEntry) (arguments : List String) : Outcome :=
  match Arguments.read arguments with
  | .error fault => (UsageFault.argument fault).outcome
  | .ok arguments =>
    match arguments.switches.find? Switch.answersAlone with
    | some .version => ⟨.success, printed ("lunec, version " ++ version), ""⟩
    | some _ => ⟨.success, printed helpText, ""⟩
    | none => processOperands arguments lookup

/-- The paths at which a run may look: the first operand, as given and normalized. -/
def inspectedPaths (arguments : List String) : List String :=
  match Arguments.read arguments with
  | .error _ => []
  | .ok arguments =>
    match arguments.operands with
    | [] => []
    | path :: _ => [path, String.ofList (Path.normalize path.toList)]

end LuneSyntax.Command
