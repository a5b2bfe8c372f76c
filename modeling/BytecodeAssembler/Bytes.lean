/-!
# Bytes

Everything the assembler writes is a list of bytes. Numbers are written
**big-endian**, the most significant byte first, and a negative number is
written as the word with the same bit pattern. A list of items is written
as a two-byte count followed by the items one after the other.
-/

namespace BytecodeAssembler

/-- A sequence of bytes, in the order they are written. -/
abbrev Bytes := List UInt8

namespace Bytes

/-- A single byte. -/
def u1 (value : UInt8) : Bytes := [value]

/-- A two-byte word, high byte first. -/
def u2 (value : UInt16) : Bytes :=
  [(value >>> 8).toUInt8, value.toUInt8]

/-- A four-byte word, high byte first. -/
def u4 (value : UInt32) : Bytes :=
  [(value >>> 24).toUInt8, (value >>> 16).toUInt8, (value >>> 8).toUInt8,
    value.toUInt8]

/-- An eight-byte word, high byte first. -/
def u8 (value : UInt64) : Bytes :=
  u4 (value >>> 32).toUInt32 ++ u4 value.toUInt32

/-- A signed byte, as its bit pattern. -/
def s1 (value : Int8) : Bytes := u1 value.toUInt8

/-- A signed two-byte number, as its bit pattern. -/
def s2 (value : Int16) : Bytes := u2 value.toUInt16

/-- A signed four-byte number, as its bit pattern. -/
def s4 (value : Int32) : Bytes := u4 value.toUInt32

/-- A signed eight-byte number, as its bit pattern. -/
def s8 (value : Int64) : Bytes := u8 value.toUInt64

/-- **A counted list**: the number of items in two bytes, then the items.
The count keeps the low sixteen bits only, so a caller that can have more
than 65535 items checks their number first. -/
def counted (items : List Bytes) : Bytes :=
  u2 (UInt16.ofNat items.length) ++ items.flatten

end Bytes

end BytecodeAssembler
