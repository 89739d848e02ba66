import LuneSyntax.Lexeme.Sequence

/-!
# Events

What an analysis reports while it goes on. The completion of an analysis is reported for
information, every other event is a detail for debugging.
-/

set_option autoImplicit false

namespace LuneSyntax

inductive Event where
  | processing (path : String) (strict : Bool)
  | scanning (name : String) (characters : Nat)
  | skipped (character : Char) (line : Nat)
  | scanned (tokens lines : Nat)
  | parsing (name : String)
  | parsed (statements tokens : Nat)
  | completed (name : String) (statements : Nat)
  deriving DecidableEq, Repr

inductive Event.Level where
  | debug
  | information
  deriving DecidableEq, Repr

def Event.Level.label : Event.Level → String
  | .debug => "DEBUG"
  | .information => "INFO"

namespace Event

def level : Event → Level
  | .completed _ _ => .information
  | _ => .debug

def message : Event → String
  | .processing path strict =>
    "Processing " ++ path ++ " (strict=" ++ (if strict then "True" else "False") ++ ")"
  | .scanning name characters =>
    "Scanning " ++ name ++ " (" ++ Numeral.decimal characters ++ " characters)"
  | .skipped character line =>
    "Skipping unknown character " ++ Quoted.write character.toString ++ " at line " ++
      Numeral.decimal line
  | .scanned tokens lines =>
    "Scanned " ++ Numeral.decimal tokens ++ " tokens over " ++ Numeral.decimal lines ++ " lines"
  | .parsing name => "Parsing " ++ name
  | .parsed statements tokens =>
    "Parsed " ++ Numeral.decimal statements ++ " statements from " ++ Numeral.decimal tokens ++
      " tokens"
  | .completed name statements => name ++ ": " ++ Numeral.decimal statements ++ " statements"

def logLine (event : Event) : String :=
  event.level.label ++ ": " ++ event.message ++ "\n"

end Event

/-- The characters that are dropped from a place on, each with its place. -/
def Lexeme.droppedFrom (place : Place) : List Lexeme → List (Place × Char)
  | [] => []
  | lexeme :: lexemes =>
    let others := droppedFrom (place.after lexeme.text) lexemes
    if lexeme.content = .dropped then (place, lexeme.first) :: others else others

namespace Lexing

def dropped (lexing : Lexing) : List (Place × Char) :=
  Lexeme.droppedFrom .start lexing.lexemes

/-- What is reported while a source is read. Only a reading that succeeds is summed up. -/
def events (lexing : Lexing) : List Event :=
  lexing.dropped.map (fun (place, character) => .skipped character place.line) ++
    match lexing.flaw with
    | some _ => []
    | none => [.scanned lexing.stream.size lexing.stop.line]

end Lexing

end LuneSyntax
