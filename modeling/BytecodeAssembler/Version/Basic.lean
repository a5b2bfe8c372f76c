import BytecodeAssembler.Bytes

/-!
# Class file versions

A class file carries a major and a minor version number. From major version
50 on, stack maps are written in the **compact form**, each frame as a
change to the one before it; older class files spell every frame out.
-/

namespace BytecodeAssembler

/-- The version of a class file. -/
structure Version where
  /-- The major number, which decides. -/
  major : UInt16
  /-- The minor number. -/
  minor : UInt16
  deriving DecidableEq, Repr

/-- How the stack maps of a class are written. -/
inductive StackMapForm where
  /-- Every frame in full, with its own offset. -/
  | legacy
  /-- Every frame as a change to the one before it. -/
  | compact
  deriving DecidableEq, Repr

namespace StackMapForm

/-- The name of the attribute that holds the stack map. -/
def attributeName : StackMapForm → String
  | .legacy => "StackMap"
  | .compact => "StackMapTable"

end StackMapForm

namespace Version

/-- The version of a class that names none. -/
def initial : Version := ⟨45, 3⟩

instance : Inhabited Version := ⟨initial⟩

/-- The first version with compact stack maps. -/
def firstCompact : Version := ⟨50, 0⟩

/-- Whether stack maps are compact in this version. -/
def isCompact (v : Version) : Bool := firstCompact.major ≤ v.major

/-- **The form of stack maps in this version.** -/
def stackMapForm (v : Version) : StackMapForm :=
  if v.isCompact then .compact else .legacy

/-- Versions are ordered by their major number, then by their minor one. -/
def compare (a b : Version) : Ordering :=
  (Ord.compare a.major b.major).then (Ord.compare a.minor b.minor)

/-- The version as it is shown. -/
def display (v : Version) : String :=
  toString v.major.toNat ++ "." ++ toString v.minor.toNat

/-- The version as it is written: the minor number comes first. -/
def bytes (v : Version) : Bytes := Bytes.u2 v.minor ++ Bytes.u2 v.major

end Version

end BytecodeAssembler
