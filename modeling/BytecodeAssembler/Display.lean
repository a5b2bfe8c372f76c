import BytecodeAssembler.StackMap.VerificationType
import BytecodeAssembler.Text.Quoted

/-!
# Types as they are shown

For looking at what was read, every type has a text that shows its parts:
names are quoted, and what surrounds a part says what it is.
-/

namespace BytecodeAssembler

/-- A primitive type as it is shown. -/
def BaseType.display : BaseType → String
  | .byte => "Byte"
  | .char => "Char"
  | .double => "Double"
  | .float => "Float"
  | .int => "Int"
  | .long => "Long"
  | .short => "Short"
  | .boolean => "Boolean"

/-- The type of a field as it is shown. -/
def FieldType.display : FieldType → String
  | .base type => "Base(" ++ type.display ++ ")"
  | .ref name => "Ref(" ++ Text.quote name ++ ")"

/-- A place in the code as it is shown. -/
def CodeOffset.display : CodeOffset → String
  | .offset value => "Offset(" ++ toString value.toNat ++ ")"
  | .label target => "Label(" ++ target.display ++ ")"

/-- **A declared type as it is shown.** -/
def DeclaredType.display : DeclaredType → String
  | .top => "Top"
  | .integer => "Integer"
  | .float => "Float"
  | .double => "Double"
  | .long => "Long"
  | .null => "Null"
  | .uninitializedThis => "UninitializedThis"
  | .object name => "Object(" ++ Text.quote name ++ ")"
  | .uninitialized place => "Uninitialized(" ++ place.display ++ ")"

end BytecodeAssembler
