import BytecodeAssembler.ConstantPool.Basic

/-!
# Attributes

An attribute is a named block of bytes: the index of its name, the length
of its content in four bytes, and the content. Whoever reads a class file
can skip an attribute it does not know.
-/

namespace BytecodeAssembler

/-- **A named block of bytes.** -/
structure Attribute where
  /-- The index of the name. -/
  name : PoolIndex
  /-- The content. -/
  info : Bytes
  deriving DecidableEq, Repr

namespace Attribute

/-- An attribute whose content is not too long for its length field. -/
def make (name : PoolIndex) (info : Bytes) : Except Fault Attribute :=
  if info.length ≤ 4294967295 then .ok ⟨name, info⟩
  else .error (.attributeTooLong info.length)

/-- The bytes of an attribute. -/
def bytes (a : Attribute) : Bytes :=
  Bytes.u2 a.name ++ Bytes.u4 (UInt32.ofNat a.info.length) ++ a.info

end Attribute

/-- **An attribute by the name that the pool holds.** -/
def ConstantPool.makeAttribute (pool : ConstantPool) (name : String) (info : Bytes) :
    Except Fault Attribute := do
  let index ← pool.utf8Index name
  Attribute.make index info

/-- **An attribute of unknown meaning**, kept as it was given. -/
structure CustomAttribute where
  /-- The name. -/
  name : String
  /-- The content. -/
  info : Bytes
  deriving DecidableEq, Repr

/-- The attribute with the index of its name. -/
def CustomAttribute.encode (a : CustomAttribute) (pool : ConstantPool) :
    Except Fault Attribute :=
  pool.makeAttribute a.name a.info

end BytecodeAssembler
