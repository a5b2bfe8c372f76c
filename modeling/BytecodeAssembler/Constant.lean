import BytecodeAssembler.Number.Binary
import BytecodeAssembler.Text.Quoted

/-!
# Constants

A constant names its parts **by value**: a class constant holds the name
and not the index of a name. Constants can therefore be made and compared
before any of them has an index, and equal constants are one constant.
Floating-point constants are bit patterns, so `0.0` and `-0.0` differ and
every not-a-number is equal to itself.
-/

namespace BytecodeAssembler

open Number (Binary32 Binary64)

/-- A field or method of a class, by name and descriptor. -/
structure MemberRef where
  /-- The class that has the member. -/
  owner : String
  /-- The name of the member. -/
  name : String
  /-- The descriptor of the member. -/
  descriptor : String
  deriving DecidableEq, Hashable, Repr

/-- **A constant of a class.** -/
inductive Constant where
  /-- A text. -/
  | utf8 (text : String)
  /-- A value of type `int`. -/
  | integer (value : Int32)
  /-- A value of type `float`. -/
  | float (value : Binary32)
  /-- A value of type `long`. -/
  | long (value : Int64)
  /-- A value of type `double`. -/
  | double (value : Binary64)
  /-- A class by its name, or an array type by its descriptor. -/
  | classRef (name : String)
  /-- A string object. -/
  | string (text : String)
  /-- The name and descriptor of some member. -/
  | nameAndType (name descriptor : String)
  /-- A field of a class. -/
  | fieldRef (member : MemberRef)
  /-- A method of a class. -/
  | methodRef (member : MemberRef)
  /-- A method of an interface. -/
  | interfaceMethodRef (member : MemberRef)
  deriving DecidableEq, Hashable, Repr

namespace Constant

/-- **The constants that an entry refers to**, in the order in which they
follow it in the pool. -/
def dependencies : Constant → List Constant
  | .utf8 _ | .integer _ | .float _ | .long _ | .double _ => []
  | .classRef name => [.utf8 name]
  | .string text => [.utf8 text]
  | .nameAndType name descriptor => [.utf8 name, .utf8 descriptor]
  | .fieldRef m | .methodRef m | .interfaceMethodRef m =>
    [.classRef m.owner, .nameAndType m.name m.descriptor]

/-- **A constant with everything below it**: each constant is followed by
what it refers to. Two steps reach everything, since a constant referred to
twice removed is a text. -/
def withDependencies (c : Constant) : List Constant :=
  c :: c.dependencies.flatMap fun d => d :: d.dependencies

/-- Whether the constant can be loaded as a value of one slot. -/
def isLoadable : Constant → Bool
  | .integer _ | .float _ | .string _ | .classRef _ => true
  | _ => false

/-- **The indices an entry takes**: two for the eight-byte constants, and
the second of them is never used. -/
def width : Constant → Nat
  | .long _ | .double _ => 2
  | _ => 1

/-- A member between braces, as messages show it. -/
def displayMember (m : MemberRef) : String :=
  "MemberRef \x7b class: " ++ Text.quote m.owner ++ ", name: " ++ Text.quote m.name
    ++ ", descriptor: " ++ Text.quote m.descriptor ++ " \x7d"

/-- A constant as messages show it. -/
def display : Constant → String
  | .utf8 text => "Utf8(" ++ Text.quote text ++ ")"
  | .integer value => "Integer(" ++ toString value.toInt ++ ")"
  | .float value => "Float(" ++ toString value.bits.toNat ++ ")"
  | .long value => "Long(" ++ toString value.toInt ++ ")"
  | .double value => "Double(" ++ toString value.bits.toNat ++ ")"
  | .classRef name => "Class(" ++ Text.quote name ++ ")"
  | .string text => "String(" ++ Text.quote text ++ ")"
  | .nameAndType name descriptor =>
    "NameAndType \x7b name: " ++ Text.quote name ++ ", descriptor: "
      ++ Text.quote descriptor ++ " \x7d"
  | .fieldRef m => "FieldRef(" ++ displayMember m ++ ")"
  | .methodRef m => "MethodRef(" ++ displayMember m ++ ")"
  | .interfaceMethodRef m => "InterfaceMethodRef(" ++ displayMember m ++ ")"

end Constant

end BytecodeAssembler
