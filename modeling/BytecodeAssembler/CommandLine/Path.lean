/-!
# Paths

A path is a text with slashes. By its **parts** it is a mark for the topmost
directory, if it begins there, and the names behind it. Slashes in a row
count as one, and a point counts for nothing, unless it is how a path begins
that does not begin at the top.

What stands above a path and what its last name is are read off its parts,
and no directory is looked at. So two points are a name like any other.
-/

namespace BytecodeAssembler.CommandLine

/-- **A path by its parts.** -/
structure PathParts where
  /-- Whether it begins at the topmost directory. -/
  rooted : Bool
  /-- The names, first one first. -/
  names : List String
  deriving DecidableEq, Repr

namespace PathParts

/-- Whether a piece between slashes counts for nothing. -/
def isSilent (piece : String) : Bool := piece == "" || piece == "."

/-- **The parts of a path.** -/
def ofPath (path : String) : PathParts :=
  match path.splitOn "/" with
  | [] | [""] => ⟨false, []⟩
  | "" :: pieces => ⟨true, pieces.filter (!isSilent ·)⟩
  | first :: pieces => ⟨false, first :: pieces.filter (!isSilent ·)⟩

/-- The path with these parts. -/
def path (p : PathParts) : String :=
  (if p.rooted then "/" else "") ++ "/".intercalate p.names

/-- **The paths above**, nearest first. The last of them has no name left. -/
def above (p : PathParts) : List String :=
  (List.range p.names.length).reverse.map fun n => path { p with names := p.names.take n }

/-- The last name, if it is the name of an entry. -/
def lastName? (p : PathParts) : Option String :=
  p.names.getLast?.filter fun name => name != "." && name != ".."

end PathParts

/-- **A path inside of a directory.** A path that begins with a slash stands
for itself. -/
def pathIn (directory path : String) : String :=
  if directory = "" || path.toList.head? = some '/' then path
  else if directory.toList.getLast? = some '/' then directory ++ path
  else directory ++ "/" ++ path

end BytecodeAssembler.CommandLine
