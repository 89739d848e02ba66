/-!
# Arguments

The command takes switches and operands in any order. Long switches begin with two dashes. Short
ones begin with one and can be joined. After an argument of exactly two dashes everything is an
operand, and so is a single dash or an empty argument anywhere.
-/

set_option autoImplicit false

namespace LuneSyntax.Command

inductive Switch where
  | tokens
  | ast
  | strict
  | verbose
  | version
  | help
  deriving DecidableEq, Repr

namespace Switch

def longNames : List (List Char × Switch) :=
  [(['-', '-', 't', 'o', 'k', 'e', 'n', 's'], .tokens),
   (['-', '-', 'a', 's', 't'], .ast),
   (['-', '-', 's', 't', 'r', 'i', 'c', 't'], .strict),
   (['-', '-', 'v', 'e', 'r', 'b', 'o', 's', 'e'], .verbose),
   (['-', '-', 'v', 'e', 'r', 's', 'i', 'o', 'n'], .version),
   (['-', '-', 'h', 'e', 'l', 'p'], .help)]

def shortNames : List (Char × Switch) := [('v', .verbose)]

/-- Whether the switch is answered without looking at anything else. -/
def answersAlone : Switch → Bool
  | .version | .help => true
  | _ => false

end Switch

inductive ArgumentFault where
  | unknownSwitch (name : String)
  | valueRefused (name : String)
  deriving DecidableEq, Repr

/-- The switches and the operands, each in the order in which they were given. -/
structure Arguments where
  switches : List Switch
  operands : List String
  deriving DecidableEq, Repr

namespace Arguments

def has (arguments : Arguments) (switch : Switch) : Bool :=
  arguments.switches.contains switch

def readShort : List Char → Except ArgumentFault (List Switch)
  | [] => .ok []
  | letter :: letters =>
    match Switch.shortNames.lookup letter with
    | none => .error (.unknownSwitch (String.ofList ['-', letter]))
    | some switch =>
      match readShort letters with
      | .error fault => .error fault
      | .ok switches => .ok (switch :: switches)

/-- The switches in an argument that begins with a dash. None of them takes a value, which would
follow an equals sign. -/
def readSwitch (argument : List Char) : Except ArgumentFault (List Switch) :=
  let name := argument.takeWhile (· ≠ '=')
  match Switch.longNames.lookup name with
  | some switch =>
    if argument.contains '=' then .error (.valueRefused (String.ofList name)) else .ok [switch]
  | none =>
    if ['-', '-'].isPrefixOf argument then .error (.unknownSwitch (String.ofList name))
    else readShort (argument.drop 1)

def isSwitch : List Char → Bool
  | '-' :: _ :: _ => true
  | _ => false

/-- Sorts arguments into switches and operands. The first argument at fault is reported. -/
def read : List String → Except ArgumentFault Arguments
  | [] => .ok ⟨[], []⟩
  | argument :: rest =>
    if argument = "--" then .ok ⟨[], rest⟩
    else if isSwitch argument.toList then
      match readSwitch argument.toList with
      | .error fault => .error fault
      | .ok switches =>
        match read rest with
        | .error fault => .error fault
        | .ok others => .ok ⟨switches ++ others.switches, others.operands⟩
    else
      match read rest with
      | .error fault => .error fault
      | .ok others => .ok ⟨others.switches, argument :: others.operands⟩

end Arguments

end LuneSyntax.Command
