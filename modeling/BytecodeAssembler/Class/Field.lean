import BytecodeAssembler.Class.Attributes
import BytecodeAssembler.ClassFile
import BytecodeAssembler.Descriptor.Reader

/-!
# Fields

A field can have a constant value, whose kind follows from the descriptor
of the field: the small integer types all take `int` constants within their
range. A **literal** of the source is first turned into a constant of the
right kind, and a field then checks the constant once more on its own.
-/

namespace BytecodeAssembler

/-- **A field of a class.** -/
structure Field where
  /-- The access flags. -/
  flags : AccessFlags .fields
  /-- The name. -/
  name : String
  /-- The descriptor of the type. -/
  descriptor : String
  /-- The constant value. -/
  constant : Option Constant
  /-- The attributes. -/
  attributes : CommonAttributes

namespace Field

/-- A field without a value and without attributes. -/
def declare (flags : AccessFlags .fields) (name descriptor : String) : Field :=
  ⟨flags, name, descriptor, none, .empty⟩

/-- **Check that a constant suits a field** with the given name, descriptor
and type. -/
def checkConstant (name descriptor : String) (type : FieldType) (c : Constant) :
    Except Fault Unit :=
  let mismatch := .error (.fieldMismatch c descriptor name)
  match type, c with
  | .base .float, .float _ => .ok ()
  | .base .long, .long _ => .ok ()
  | .base .double, .double _ => .ok ()
  | .base type, .integer value =>
    match type.intRange? with
    | some (low, high) =>
      if low ≤ value.toInt ∧ value.toInt ≤ high then .ok ()
      else .error (.fieldRange value.toInt name descriptor)
    | none => mismatch
  | type, .string _ => if type.isString then .ok () else mismatch
  | _, _ => mismatch

/-- **Set the constant value of a field**, if it suits the field. -/
def setConstant (f : Field) (c : Constant) : Except Fault Field := do
  let type ← FieldType.read f.descriptor
  checkConstant f.name f.descriptor type c
  return { f with constant := some c }

/-- **The constants that a field needs**, in the order in which it registers
them. -/
def constants (f : Field) : List Constant :=
  [.utf8 f.name, .utf8 f.descriptor]
    ++ f.constant.elim [] (fun c => [.utf8 "ConstantValue", c])
    ++ f.attributes.constants

/-- The attribute of the constant value. -/
def encodeConstant (pool : ConstantPool) (c : Constant) : Except Fault Attribute := do
  let index ← pool.indexOf c
  pool.makeAttribute "ConstantValue" (Bytes.u2 index)

/-- **The field as it is written.** -/
def encode (f : Field) (pool : ConstantPool) : Except Fault (MemberInfo .fields) := do
  let value ← f.constant.elim (.ok []) fun c => (encodeConstant pool c).map ([·])
  let common ← f.attributes.encode pool
  let name ← pool.utf8Index f.name
  let descriptor ← pool.utf8Index f.descriptor
  return ⟨f.flags, name, descriptor, value ++ common⟩

end Field

/-- **The constant that a literal stands for** in a field with the given
descriptor. -/
def Literal.toConstant (literal : Literal) (descriptor : String) : Except Fault Constant := do
  let type ← FieldType.read descriptor
  let mismatch := .error (.literalMismatch literal descriptor)
  match type, literal with
  | .base .long, .int value => return .long value
  | .base .float, .int value => return .float (.ofInt value.toInt)
  | .base .float, .float value => return .float value.toBinary32
  | .base .double, .int value => return .double (.ofInt value.toInt)
  | .base .double, .float value => return .double value
  | .base type, .int value =>
    match type.intRange? with
    | some (low, high) =>
      if low ≤ value.toInt ∧ value.toInt ≤ high then
        return .integer (Int32.ofInt value.toInt)
      else .error (.literalRange value.toInt descriptor)
    | none => mismatch
  | type, .string text => if type.isString then return .string text else mismatch
  | _, _ => mismatch

end BytecodeAssembler
