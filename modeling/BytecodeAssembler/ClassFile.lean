import BytecodeAssembler.AccessFlags.Basic
import BytecodeAssembler.Attribute
import BytecodeAssembler.Version.Basic

/-!
# Class files

A class file is what the encoding of a class ends in: every name is an
index into the constant pool, and every attribute is a block of bytes.
-/

namespace BytecodeAssembler

/-- A field or method as it stands in a class file. -/
structure MemberInfo (c : Carrier) where
  /-- The access flags. -/
  flags : AccessFlags c
  /-- The index of the name. -/
  name : PoolIndex
  /-- The index of the descriptor. -/
  descriptor : PoolIndex
  /-- The attributes. -/
  attributes : List Attribute
  deriving DecidableEq, Repr

/-- The bytes of a field or method. -/
def MemberInfo.bytes {c : Carrier} (m : MemberInfo c) : Bytes :=
  m.flags.bytes ++ Bytes.u2 m.name ++ Bytes.u2 m.descriptor
    ++ Bytes.counted (m.attributes.map Attribute.bytes)

/-- **A class file.** -/
structure ClassFile where
  /-- The version. -/
  version : Version
  /-- One more than the last index of the constant pool. -/
  poolCount : UInt16
  /-- The constants, in the order of their indices. -/
  constants : List PoolEntry
  /-- The access flags. -/
  flags : AccessFlags .classes
  /-- The class itself. -/
  thisClass : PoolIndex
  /-- The class above it; 0 for the one class that has none. -/
  superClass : PoolIndex
  /-- The interfaces. -/
  interfaces : List PoolIndex
  /-- The fields. -/
  fields : List (MemberInfo .fields)
  /-- The methods. -/
  methods : List (MemberInfo .methods)
  /-- The attributes. -/
  attributes : List Attribute
  deriving DecidableEq, Repr

namespace ClassFile

/-- The bytes that every class file starts with. -/
def magic : Bytes := [0xca, 0xfe, 0xba, 0xbe]

/-- **The bytes of a class file.** The pool has no count of its entries but
the one of its indices. -/
def bytes (c : ClassFile) : Bytes :=
  magic ++ c.version.bytes ++ Bytes.u2 c.poolCount
    ++ (c.constants.map PoolEntry.bytes).flatten
    ++ c.flags.bytes ++ Bytes.u2 c.thisClass ++ Bytes.u2 c.superClass
    ++ Bytes.counted (c.interfaces.map Bytes.u2)
    ++ Bytes.counted (c.fields.map MemberInfo.bytes)
    ++ Bytes.counted (c.methods.map MemberInfo.bytes)
    ++ Bytes.counted (c.attributes.map Attribute.bytes)

end ClassFile

end BytecodeAssembler
