import BytecodeAssembler.Bytes
import BytecodeAssembler.CommandLine.Path

/-!
# Files

The command line reads and writes files through a record of operations, so
that the same run works on a disk and on files held in memory. An operation
that fails says why.
-/

namespace BytecodeAssembler.CommandLine

/-- **Why an operation on a file failed.** -/
inductive FileFault where
  /-- There is no such file or directory. -/
  | missing
  /-- Something on the way is not a directory. -/
  | notDirectory
  /-- It is a directory. -/
  | isDirectory
  /-- It is there already and not a directory. -/
  | alreadyThere
  /-- A name on the way is too long. -/
  | nameTooLong
  /-- A name has a character that ends names. -/
  | badName
  /-- Anything else. -/
  | other (text : String)
  deriving DecidableEq, Repr

namespace FileFault

/-- What the system calls the fault: its number, its sort and its text. -/
def system? : FileFault → Option (Nat × String × String)
  | .missing => some (2, "NotFound", "No such file or directory")
  | .alreadyThere => some (17, "AlreadyExists", "File exists")
  | .notDirectory => some (20, "NotADirectory", "Not a directory")
  | .isDirectory => some (21, "IsADirectory", "Is a directory")
  | .nameTooLong => some (36, "InvalidFilename", "File name too long")
  | .badName | .other _ => none

/-- The fault in words, for those the system has no name for. -/
def plain : FileFault → String
  | .other text => text
  | _ => "file name contained an unexpected NUL byte"

/-- **The fault as it is shown.** -/
def message (f : FileFault) : String :=
  match f.system? with
  | some (code, _, text) => s!"{text} (os error {code})"
  | none => f.plain

/-- The fault with all its parts, for one that ends the run. -/
def parts (f : FileFault) : String :=
  match f.system? with
  | some (code, sort, text) =>
    s!"Os \x7b code: {code}, kind: {sort}, message: \"{text}\" \x7d"
  | none => s!"Error \x7b kind: InvalidInput, message: \"{f.plain}\" \x7d"

end FileFault

/-- **What a run does with files.** -/
structure FileAccess (m : Type → Type) where
  /-- The bytes of a file. -/
  read : String → m (Except FileFault Bytes)
  /-- Make a directory in one that is there. A directory that is there
  already is left as it is. -/
  makeDirectory : String → m (Except FileFault Unit)
  /-- Make a file with these bytes, or replace its bytes. -/
  write : String → Bytes → m (Except FileFault Unit)
  /-- Remove a file, if it is there. -/
  remove : String → m Unit

namespace FileAccess

variable {m : Type → Type} [Monad m]

/-- Make the first of several directories, each of which is made in the
next. The next one is asked for only where the first cannot be made without
it, and a path without names asks for nothing. -/
def makeFirst (access : FileAccess m) : List String → m (Except FileFault Unit)
  | [] => return .ok ()
  | path :: above => do
    if path = "" then return .ok ()
    match ← access.makeDirectory path with
    | .error .missing =>
      match ← access.makeFirst above with
      | .error fault => return .error fault
      | .ok () => access.makeDirectory path
    | outcome => return outcome

/-- **Make a directory and those above it**, where they are missing. The
path itself is asked for as it is written, and the ones above it by their
names. So a point behind the last name asks for a directory that has to be
there before, and it is not made on the way. -/
def makeDirectories (access : FileAccess m) (path : String) : m (Except FileFault Unit) :=
  access.makeFirst (path :: (PathParts.ofPath path).above)

end FileAccess

end BytecodeAssembler.CommandLine
