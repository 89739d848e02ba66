import LuneSyntax.Command.Run

/-!
# The command line

Looks up the files that the arguments name, runs the command on them, and prints its outcome.
-/

set_option autoImplicit false

/-- The number by which the system reports that a path names a directory. -/
private def directoryErrorNumber : UInt32 := 21

/-- What the file system has at a path. A file that cannot be read counts as missing. -/
private def lookUpFile (path : String) : IO LuneSyntax.FileEntry := do
  try
    let bytes ← IO.FS.readBinFile path
    return .file bytes.toList
  catch error =>
    match error with
    | .inappropriateType _ number _ =>
      return if number = directoryErrorNumber then .directory else .missing
    | _ => return .missing

def main (arguments : List String) : IO UInt32 := do
  let entries ← (LuneSyntax.Command.inspectedPaths arguments).mapM fun path => do
    return (path, ← lookUpFile path)
  let outcome :=
    LuneSyntax.Command.run (fun path => (entries.lookup path).getD .missing) arguments
  IO.print outcome.stdout
  IO.eprint outcome.stderr
  return outcome.exit.number.toUInt32
