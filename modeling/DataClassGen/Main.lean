import DataClassGen.Command.Program

/-!
# The entry point

The program on the files of the machine.
-/

namespace DataClassGen

/-- An action on the machine, with its error as a failure. -/
def tryAction {α : Type} (action : IO α) : ExceptT Failure IO α :=
  ExceptT.mk do
    try return .ok (← action)
    catch e => return .error (.io (toString e))

/-- Access to the files of the machine. A file is written beside its place and then moved there. -/
def machineFiles : FileAccess IO where
  read path := tryAction do return (← IO.FS.readBinFile path).data.toList
  write path contents := do
    match Path.parent? path with
    | none => throw (.internal ("no parent directory for " ++ path))
    | some (parent, name) =>
      let draft := Path.push parent ("." ++ toString (hash name) ++ ".part")
      tryAction do
        unless Path.isUsable parent do throw (.userError "the path cannot be followed")
        IO.FS.createDirAll parent
        IO.FS.writeFile draft contents
        try IO.FS.rename draft path
        catch e =>
          IO.FS.removeFile draft
          throw e

end DataClassGen

/-- The program with the arguments of its command line. -/
def main (arguments : List String) : IO UInt32 := do
  let outcome ← DataClassGen.runProgram DataClassGen.machineFiles arguments
  IO.eprint outcome.errorOutput
  IO.print outcome.output
  return outcome.code.toUInt32
