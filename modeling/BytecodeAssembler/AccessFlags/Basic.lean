import BytecodeAssembler.Bytes

/-!
# Access flags

Classes, methods, fields and inner classes carry sixteen flag bits. The
same bit means different things on different carriers, so the flags are
typed by **what carries them**: each carrier has its own keywords, and only
the bits of these keywords can be set.
-/

namespace BytecodeAssembler

/-- What carries access flags. -/
inductive Carrier where
  | classes
  | methods
  | fields
  | innerClasses
  deriving DecidableEq, Repr

namespace Carrier

/-- The carrier in words. -/
def describe : Carrier → String
  | .classes => "class"
  | .methods => "method"
  | .fields => "field"
  | .innerClasses => "inner class"

/-- **The keywords of a carrier with the bit each one sets.** -/
def keywords : Carrier → List (String × UInt16)
  | .classes =>
    [("public", 0x0001), ("final", 0x0010), ("super", 0x0020), ("interface", 0x0200),
      ("abstract", 0x0400), ("synthetic", 0x1000), ("annotation", 0x2000),
      ("enum", 0x4000), ("module", 0x8000)]
  | .methods =>
    [("public", 0x0001), ("private", 0x0002), ("protected", 0x0004), ("static", 0x0008),
      ("final", 0x0010), ("synchronized", 0x0020), ("bridge", 0x0040),
      ("varargs", 0x0080), ("native", 0x0100), ("abstract", 0x0400), ("strict", 0x0800),
      ("strictfp", 0x0800), ("synthetic", 0x1000)]
  | .fields =>
    [("public", 0x0001), ("private", 0x0002), ("protected", 0x0004), ("static", 0x0008),
      ("final", 0x0010), ("volatile", 0x0040), ("transient", 0x0080),
      ("synthetic", 0x1000), ("enum", 0x4000)]
  | .innerClasses =>
    [("public", 0x0001), ("private", 0x0002), ("protected", 0x0004), ("static", 0x0008),
      ("final", 0x0010), ("interface", 0x0200), ("abstract", 0x0400),
      ("synthetic", 0x1000), ("annotation", 0x2000), ("enum", 0x4000)]

/-- The bits that some keyword of the carrier sets. -/
def mask (c : Carrier) : UInt16 :=
  c.keywords.foldl (fun bits keyword => bits ||| keyword.2) 0

end Carrier

/-- **The flags of one carrier.** -/
structure AccessFlags (c : Carrier) where
  /-- The flag bits. -/
  bits : UInt16
  deriving DecidableEq, Repr

namespace AccessFlags

variable {c : Carrier}

/-- No flags. -/
def empty : AccessFlags c := ⟨0⟩

instance : Inhabited (AccessFlags c) := ⟨empty⟩

/-- The flags among the given bits; bits that mean nothing on the carrier
are dropped. -/
def ofBits (bits : UInt16) : AccessFlags c := ⟨bits &&& c.mask⟩

/-- The flags of both. -/
def union (a b : AccessFlags c) : AccessFlags c := ⟨a.bits ||| b.bits⟩

/-- Whether one of the given bits is set. -/
def hasAny (a : AccessFlags c) (bits : UInt16) : Bool := a.bits &&& bits != 0

/-- The flags as they are written. -/
def bytes (a : AccessFlags c) : Bytes := Bytes.u2 a.bits

end AccessFlags

/-- The bit of a static member. -/
def AccessFlags.staticBit : UInt16 := 0x0008

/-- The bit of a method implemented elsewhere. -/
def AccessFlags.nativeBit : UInt16 := 0x0100

/-- The bit of an interface. -/
def AccessFlags.interfaceBit : UInt16 := 0x0200

/-- The bit of an abstract class or method. -/
def AccessFlags.abstractBit : UInt16 := 0x0400

end BytecodeAssembler
