import BytecodeAssembler.CommandLine.Files
import BytecodeAssembler.CommandLine.Options
import BytecodeAssembler.Source.Reading
import BytecodeAssembler.Text.Utf8

/-!
# A run of the command line

Every file is assembled on its own, and a file that fails does not keep the
others from being assembled. A class goes to the destination under its own
name, so the packages in its name become directories.
-/

namespace BytecodeAssembler.CommandLine

/-- **What a run shows**: its exit code and the lines of its errors. -/
structure Outcome where
  /-- Zero if every file was assembled. -/
  exitCode : UInt32
  /-- What went wrong. -/
  errors : List String
  deriving DecidableEq, Repr

/-- The characters of a source. -/
def Encoding.decode (e : Encoding) (bytes : Bytes) : Except Failure String :=
  match e with
  | .latin1 => .ok (Text.decodeLatin1 bytes)
  | .utf8 =>
    match Text.decodeUtf8 bytes with
    | .ok text => .ok text
    | .error fault => .error (.inputOutput fault.message)

section

variable {m : Type → Type} [Monad m]

/-- Write a class, after the directories above it. A file that could not be
written is not left behind. -/
def save (access : FileAccess m) (path : String) (bytes : Bytes) :
    m (Except Failure Unit) := do
  let made ← access.makeFirst (PathParts.ofPath path).above
  let written ←
    match made with
    | .error fault => pure (.error fault)
    | .ok () => access.write path bytes
  match written with
  | .ok () => return .ok ()
  | .error fault =>
    access.remove path
    return .error (.inputOutput fault.message)

/-- **Assemble one file.** -/
def assembleFile (access : FileAccess m) (options : Options) (file : String) :
    m (Except Failure Unit) := do
  match ← access.read file with
  | .error fault => return .error (.inputOutput fault.message)
  | .ok bytes =>
    match options.encoding.decode bytes with
    | .error failure => return .error failure
    | .ok text =>
      let name? := (PathParts.ofPath file).lastName?
      let settings : Settings := ⟨options.autoLines, .initial, name?⟩
      let assembler := Source.read (.start settings) text
      match assembler.finish with
      | .error failure => return .error failure
      | .ok classFile =>
        let name := assembler.className?.getD ""
        save access (pathIn options.destination (name ++ ".class")) classFile.bytes

/-- The lines that report a failure of a file. -/
def reportLines (file : String) (failure : Failure) : List String :=
  (failure.messages.map fun line => s!"{file}: {line}")
    ++ [s!"{file}: found {failure.count} error(s)"]

/-- **Assemble all files.** The destination is made first. -/
def run (access : FileAccess m) (options : Options) : m Outcome := do
  match ← access.makeDirectories options.destination with
  | .error fault => return ⟨1, [s!"Error: IoError({fault.parts})"]⟩
  | .ok () =>
    let reports ← options.files.mapM fun file => do
      match ← assembleFile access options file with
      | .ok () => return []
      | .error failure => return reportLines file failure
    let errors := reports.flatten
    return ⟨if errors.isEmpty then 0 else 1, errors⟩

end

end BytecodeAssembler.CommandLine
