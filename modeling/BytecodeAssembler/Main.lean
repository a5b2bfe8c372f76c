import BytecodeAssembler.CommandLine.Run

/-!
# The command line

The outer layer: the files of a run are files on disk, errors go to the
standard error stream, and the outcome becomes the exit code.
-/

namespace BytecodeAssembler.CommandLine

/-- The number of an error of the system, which can come as its negative. -/
def errorNumber (code : UInt32) : UInt32 := min code (0 - code)

/-- The cause of an error of the system. -/
def faultOf (e : IO.Error) : FileFault :=
  match e with
  | .noFileOrDirectory _ _ _ | .noSuchThing _ _ _ => .missing
  | .alreadyExists _ _ _ => .alreadyThere
  | .inappropriateType _ code _ =>
    match errorNumber code with
    | 20 => .notDirectory
    | 21 => .isDirectory
    | _ => .other (toString e)
  | .invalidArgument _ code _ =>
    if errorNumber code = 36 then .nameTooLong else .other (toString e)
  | e => .other (toString e)

/-- Turn an error of the system into a value. -/
def guarded {α : Type} (action : IO α) : IO (Except FileFault α) := do
  try return .ok (← action) catch e => return .error (faultOf e)

/-- Make a directory on disk. Where there is something already, asking for
the directories above it as well makes nothing, and fails if it is no
directory. -/
def makeOnDisk (path : String) : IO Unit := do
  try IO.FS.createDir path
  catch
    | .alreadyExists _ _ _ => IO.FS.createDirAll path
    | e => throw e

/-- **Files on disk as files of a run.** -/
def disk : FileAccess IO where
  read path := guarded do return (← IO.FS.readBinFile path).toList
  makeDirectory path := guarded (makeOnDisk path)
  write path bytes := guarded (IO.FS.writeBinFile path ⟨bytes.toArray⟩)
  remove path := do let _ ← guarded (IO.FS.removeFile path)

/-- How the command line is written. -/
def usageText : String :=
  "usage: [-g] [-d DIRECTORY | --dest DIRECTORY] [-e ENCODING | --encoding ENCODING] FILES..."

end BytecodeAssembler.CommandLine

open BytecodeAssembler.CommandLine in
/-- Assemble the files that the arguments name. -/
def main (arguments : List String) : IO UInt32 := do
  match Options.read? arguments with
  | none =>
    IO.eprintln usageText
    return 2
  | some options =>
    let outcome ← run disk options
    for line in outcome.errors do
      IO.eprintln line
    return outcome.exitCode
