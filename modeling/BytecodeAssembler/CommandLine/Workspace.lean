import BytecodeAssembler.CommandLine.Files

/-!
# Files held in memory

A workspace is a tree of directories and files below one directory, which
is where paths start. A path is walked piece by piece: an empty piece and a
point stay where they are, two points go up, and any other piece goes to
the entry of that name. Every piece but the last has to lead to a directory.
-/

namespace BytecodeAssembler.CommandLine

/-- A place in a workspace: the names on the way to it. It can begin with
steps out of the workspace. -/
abbrev Place := List String

/-- **Files held in memory.** -/
structure Workspace where
  /-- The files with their bytes. -/
  files : List (Place × Bytes)
  /-- The directories below the one where paths start. -/
  directories : List Place

namespace Workspace

/-- A workspace with nothing in it. -/
def empty : Workspace := ⟨[], []⟩

/-- The bytes of the file at a place. -/
def file? (w : Workspace) (place : Place) : Option Bytes := w.files.lookup place

/-- Whether a place is a directory. The one where paths start is, and so is
everything above it. -/
def isDirectory (w : Workspace) (place : Place) : Bool :=
  place.all (· == "..") || place == ["/"] || w.directories.contains place

/-- The place above. -/
def above (place : Place) : Place :=
  match place.getLast? with
  | none | some ".." => place ++ [".."]
  | some "/" => place
  | some _ => place.dropLast

/-- The longest name, in bytes. -/
def maxNameLength : Nat := 255

/-- **One step of a walk.** -/
def step (w : Workspace) (place : Place) (piece : String) : Except FileFault Place :=
  if !w.isDirectory place then .error .notDirectory
  else if piece = "" || piece = "." then .ok place
  else if piece = ".." then .ok (above place)
  else if piece.utf8ByteSize > maxNameLength then .error .nameTooLong
  else
    let next := place ++ [piece]
    if w.isDirectory next || (w.file? next).isSome then .ok next else .error .missing

/-- **Walk along the pieces of a path.** -/
def walk (w : Workspace) (place : Place) (pieces : List String) : Except FileFault Place :=
  pieces.foldlM w.step place

/-- The pieces of a path and the place where it starts. -/
def pieces (path : String) : Place × List String :=
  match path.splitOn "/" with
  | "" :: rest => (["/"], rest)
  | all => ([], all)

/-- Whether a path can be given to the system at all. -/
def checkPath (path : String) : Except FileFault Unit :=
  if path.toList.contains '\x00' then .error .badName
  else if path.utf8ByteSize > 4095 then .error .nameTooLong
  else .ok ()

/-- **The bytes of a file.** -/
def read (w : Workspace) (path : String) : Except FileFault Bytes := do
  checkPath path
  if path = "" then throw .missing
  let (start, names) := pieces path
  let place ← w.walk start names
  if w.isDirectory place then throw .isDirectory
  match w.file? place with
  | some bytes => return bytes
  | none => throw .missing

/-- Pieces without the empty ones at the end. -/
def dropTrailing (names : List String) : List String :=
  (names.reverse.dropWhile (· == "")).reverse

/-- **Make a directory** in one that is there. Slashes at the end of the path
do not matter. -/
def makeDirectory (w : Workspace) (path : String) : Except FileFault Workspace := do
  checkPath path
  if path = "" then throw .missing
  let (start, names) := pieces path
  let names := dropTrailing names
  let last := names.getLast?.getD ""
  let directory ← w.walk start names.dropLast
  match w.step directory last with
  | .ok place => if w.isDirectory place then return w else throw .alreadyThere
  | .error .missing =>
    return { w with directories := (directory ++ [last]) :: w.directories }
  | .error fault => throw fault

/-- **Make a file**, or replace its bytes. -/
def write (w : Workspace) (path : String) (bytes : Bytes) : Except FileFault Workspace := do
  checkPath path
  let (start, names) := pieces path
  let last := names.getLast?.getD ""
  let directory ← w.walk start names.dropLast
  match w.step directory last with
  | .ok place =>
    if w.isDirectory place then throw .isDirectory
    return { w with files := (place, bytes) :: w.files.filter (·.1 != place) }
  | .error .missing => return { w with files := (directory ++ [last], bytes) :: w.files }
  | .error fault => throw fault

/-- **Remove a file**, if it is there. -/
def remove (w : Workspace) (path : String) : Workspace :=
  let (start, names) := pieces path
  match w.walk start names with
  | .error _ => w
  | .ok place => { w with files := w.files.filter (·.1 != place) }

/-- Add a file with the directories above it. -/
def insert (w : Workspace) (path : String) (bytes : Bytes) : Workspace :=
  let place := (path.splitOn "/").filter (· != "")
  let parents := (List.range place.length).filterMap fun n =>
    if n = 0 then none else some (place.take n)
  { files := (place, bytes) :: w.files, directories := parents ++ w.directories }

/-- Keep a changed workspace, or the old one if the change failed. -/
def keep (change : Workspace → Except FileFault Workspace) :
    StateM Workspace (Except FileFault Unit) := fun w =>
  match change w with
  | .ok w => (.ok (), w)
  | .error fault => (.error fault, w)

/-- **Files held in memory as files of a run.** -/
def access : FileAccess (StateM Workspace) where
  read path := fun w => (w.read path, w)
  makeDirectory path := keep (·.makeDirectory path)
  write path bytes := keep (·.write path bytes)
  remove path := fun w => ((), w.remove path)

/-- The files below the directory where paths start, each with its path. -/
def listing (w : Workspace) : List (String × Bytes) :=
  (w.files.filter fun (place, _) => place.head? != some ".." && place.head? != some "/").map
    fun (place, bytes) => ("/".intercalate place, bytes)

end Workspace

end BytecodeAssembler.CommandLine
