import BytecodeAssembler.Fault.Basic

/-!
# Numbers that fit their fields

A number of the source has 64 bits and is narrowed to the field it is meant
for. A number that does not fit is a fault that names the field.
-/

namespace BytecodeAssembler

/-- The value of a number that lies between two bounds. -/
def narrow (what : String) (low high : Int) (value : Int64) : Except Fault Int :=
  if low ≤ value.toInt ∧ value.toInt ≤ high then .ok value.toInt
  else .error (.outOfRange what value.toInt)

/-- A number in an unsigned byte. -/
def narrowU1 (what : String) (value : Int64) : Except Fault UInt8 :=
  (narrow what 0 255 value).map fun n => UInt8.ofNat n.toNat

/-- A number in two unsigned bytes. -/
def narrowU2 (what : String) (value : Int64) : Except Fault UInt16 :=
  (narrow what 0 65535 value).map fun n => UInt16.ofNat n.toNat

/-- A number in a signed byte. -/
def narrowS1 (what : String) (value : Int64) : Except Fault Int8 :=
  (narrow what (-128) 127 value).map Int8.ofInt

/-- A number in two signed bytes. -/
def narrowS2 (what : String) (value : Int64) : Except Fault Int16 :=
  (narrow what (-32768) 32767 value).map Int16.ofInt

/-- A number in four signed bytes. -/
def narrowS4 (what : String) (value : Int64) : Except Fault Int32 :=
  (narrow what (-2147483648) 2147483647 value).map Int32.ofInt

end BytecodeAssembler
