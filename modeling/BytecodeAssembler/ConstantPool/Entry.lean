import BytecodeAssembler.Bytes
import BytecodeAssembler.Number.Binary

/-!
# Pool entries

In a class file a constant refers to others by **index**. Every entry is a
tag byte and a payload whose length the tag decides, except for a text,
which carries its own length.
-/

namespace BytecodeAssembler

open Number (Binary32 Binary64)

/-- An index into the constant pool. Indices start at 1, and 0 stands for
nothing where something may be absent. -/
abbrev PoolIndex := UInt16

/-- **A constant as it stands in a class file.** -/
inductive PoolEntry where
  /-- A text, in modified UTF-8 already. -/
  | utf8 (bytes : Bytes)
  | integer (value : Int32)
  | float (value : Binary32)
  | long (value : Int64)
  | double (value : Binary64)
  | classRef (name : PoolIndex)
  | string (text : PoolIndex)
  | nameAndType (name descriptor : PoolIndex)
  | fieldRef (owner member : PoolIndex)
  | methodRef (owner member : PoolIndex)
  | interfaceMethodRef (owner member : PoolIndex)
  deriving DecidableEq, Repr

namespace PoolEntry

/-- **The bytes of an entry**: its tag and its payload. -/
def bytes : PoolEntry → Bytes
  | .utf8 text => 1 :: (Bytes.u2 (UInt16.ofNat text.length) ++ text)
  | .integer value => 3 :: Bytes.s4 value
  | .float value => 4 :: Bytes.u4 value.bits
  | .long value => 5 :: Bytes.s8 value
  | .double value => 6 :: Bytes.u8 value.bits
  | .classRef name => 7 :: Bytes.u2 name
  | .string text => 8 :: Bytes.u2 text
  | .fieldRef owner member => 9 :: (Bytes.u2 owner ++ Bytes.u2 member)
  | .methodRef owner member => 10 :: (Bytes.u2 owner ++ Bytes.u2 member)
  | .interfaceMethodRef owner member => 11 :: (Bytes.u2 owner ++ Bytes.u2 member)
  | .nameAndType name descriptor => 12 :: (Bytes.u2 name ++ Bytes.u2 descriptor)

/-- The indices an entry takes. -/
def width : PoolEntry → Nat
  | .long _ | .double _ => 2
  | _ => 1

end PoolEntry

end BytecodeAssembler
