import BytecodeAssembler.Constant
import BytecodeAssembler.Label.Basic

/-!
# Operands

The operand of an instruction is **resolved**: numbers fit their fields,
labels are handles and constants are held by value. What is still open are
the index of each constant, which the numbering of the pool gives, and the
offset of each label, which the layout of the body gives.
-/

namespace BytecodeAssembler

/-- **The operand of an instruction.** -/
inductive Operand where
  /-- Nothing. -/
  | none
  /-- A local variable. -/
  | localVar (index : UInt16)
  /-- A local variable and what is added to it. -/
  | increment (index : UInt16) (delta : Int16)
  /-- A signed byte. -/
  | byte (value : Int8)
  /-- A signed number of two bytes. -/
  | short (value : Int16)
  /-- The code of a primitive array type. -/
  | arrayType (code : UInt8)
  /-- A place to jump to. -/
  | branch (target : Label)
  /-- A constant to load, or the class or member to work on. -/
  | constant (value : Constant)
  /-- A method of an interface and its argument slots, receiver included. -/
  | interfaceMethod (method : Constant) (slots : UInt8)
  /-- An array class and the dimensions to allocate. -/
  | multiArray (type : Constant) (dimensions : UInt8)
  /-- Targets for the keys from `low` on, and one for every other key. -/
  | tableSwitch (low : Int32) (fallback : Label) (targets : List Label)
  /-- Targets by key, and one for every other key. -/
  | lookupSwitch (fallback : Label) (pairs : List (Int32 × Label))
  deriving DecidableEq, Repr

namespace Operand

/-- What the operand is, in words. -/
def describe : Operand → String
  | .none => "no operand"
  | .localVar _ => "a local variable index"
  | .increment _ _ => "a local variable index and an increment"
  | .byte _ => "a byte immediate"
  | .short _ => "a short immediate"
  | .arrayType _ => "a primitive array type"
  | .branch _ => "a label"
  | .constant value =>
    match value with
    | .integer _ => "an int constant"
    | .float _ => "a float constant"
    | .long _ => "a long constant"
    | .double _ => "a double constant"
    | .string _ => "a string constant"
    | .classRef _ => "a class name"
    | .fieldRef _ => "a field reference"
    | .methodRef _ => "a method reference"
    | .interfaceMethodRef _ => "an interface method reference"
    | .utf8 _ | .nameAndType _ _ => "an unloadable constant"
  | .interfaceMethod _ _ => "an interface method reference and argument count"
  | .multiArray _ _ => "a class name and dimension count"
  | .tableSwitch _ _ _ => "a table switch"
  | .lookupSwitch _ _ => "a lookup switch"

end Operand

end BytecodeAssembler
