import BytecodeAssembler.ConstantPool.Basic
import BytecodeAssembler.Label.Table
import BytecodeAssembler.Text.Integer

/-!
# Verification types

A stack map says of every local variable and stack item which type it has,
as far as checking the code needs it. The type is generic in how a class is
named and in how the place of a `new` instruction is given: a **declared**
type has a class name and an offset or label, a **resolved** one has a
class name and an offset, and an **encoded** one has the index of the class
and an offset.
-/

namespace BytecodeAssembler

/-- **What a slot holds**, with classes named by `α` and places given by
`β`. -/
inductive VerificationType (α β : Type) where
  /-- Nothing that can be used. -/
  | top
  /-- An `int`, or a type that is stored as one. -/
  | integer
  | float
  | double
  | long
  | null
  /-- The receiver of a constructor before the constructor above it has
  run. -/
  | uninitializedThis
  /-- An object of a class. -/
  | object (type : α)
  /-- An object made by the `new` instruction at a place and not yet
  constructed. -/
  | uninitialized (place : β)
  deriving DecidableEq, Repr, Inhabited

namespace VerificationType

variable {α β γ δ : Type}

/-- Change how classes are named and places given, where either can
fail. -/
def mapM (onClass : α → Except Fault γ) (onPlace : β → Except Fault δ) :
    VerificationType α β → Except Fault (VerificationType γ δ)
  | .top => .ok .top
  | .integer => .ok .integer
  | .float => .ok .float
  | .double => .ok .double
  | .long => .ok .long
  | .null => .ok .null
  | .uninitializedThis => .ok .uninitializedThis
  | .object type => (onClass type).map .object
  | .uninitialized place => (onPlace place).map .uninitialized

/-- The slots a value of the type takes. -/
def width : VerificationType α β → Nat
  | .double | .long => 2
  | _ => 1

/-- The class that the type mentions. -/
def class? : VerificationType α β → Option α
  | .object type => some type
  | _ => none

end VerificationType

/-- **A place in the code**, known up front or by a label. -/
inductive CodeOffset where
  | offset (value : UInt16)
  | label (target : Label)
  deriving DecidableEq, Repr

/-- The offset of a place, once the body is laid out. -/
def CodeOffset.resolve (place : CodeOffset) (labels : LabelTable) : Except Fault UInt16 :=
  match place with
  | .offset value => .ok value
  | .label target =>
    match labels.offset target with
    | .error fault => .error fault
    | .ok position =>
      if position ≤ 65535 then .ok (UInt16.ofNat position)
      else .error (.labelOffsetTooLarge (labels.nameOf target) position)

/-- A type as a frame declares it. -/
abbrev DeclaredType := VerificationType String CodeOffset

/-- A type whose places are offsets. -/
abbrev ResolvedType := VerificationType String UInt16

/-- A type as it is written. -/
abbrev EncodedType := VerificationType PoolIndex UInt16

namespace DeclaredType

/-- The types that are written as a bare name. -/
def bare? : String → Option DeclaredType
  | "Top" => some .top
  | "Integer" => some .integer
  | "Float" => some .float
  | "Long" => some .long
  | "Double" => some .double
  | "Null" => some .null
  | "UninitializedThis" => some .uninitializedThis
  | _ => none

/-- The place that a text gives: an offset if it is an integer, and a label
otherwise. The fault of an integer that is no offset is up to the
caller. -/
def readPlace (labels : LabelTable) (text : String) (outOfRange : Int → Fault) :
    Except Fault CodeOffset × LabelTable :=
  match Text.readInt64 10 text.toList with
  | .ok value =>
    if 0 ≤ value.toInt ∧ value.toInt ≤ 65535 then
      (.ok (.offset (UInt16.ofNat value.toInt.toNat)), labels)
    else (.error (outOfRange value.toInt), labels)
  | .error _ =>
    let (label, labels) := labels.mention text
    (.ok (.label label), labels)

/-- **The type that a name and an argument spell.** An object type takes a
class name, an uninitialized one the place of its `new` instruction; the
others take nothing. -/
def ofName (labels : LabelTable) (name : String) (argument : Option String) :
    Except Fault DeclaredType × LabelTable :=
  match bare? name, argument with
  | some type, none => (.ok type, labels)
  | some _, some _ => (.error (.typeTakesNoArgument name), labels)
  | none, argument =>
    if name = "Object" then
      match argument with
      | some type => (.ok (.object type), labels)
      | none => (.error (.typeNeedsArgument name), labels)
    else if name = "Uninitialized" then
      match argument with
      | some text =>
        let (place, labels) := readPlace labels text .uninitializedOffset
        (place.map .uninitialized, labels)
      | none => (.error (.typeNeedsArgument name), labels)
    else (.error (.unknownType name), labels)

/-- **The type of a value with the given field type.** -/
def ofFieldType : FieldType → DeclaredType
  | .base .int | .base .char | .base .short | .base .byte | .base .boolean => .integer
  | .base .float => .float
  | .base .long => .long
  | .base .double => .double
  | .ref name => .object name

/-- Replace the labels by their offsets. -/
def resolve (type : DeclaredType) (labels : LabelTable) : Except Fault ResolvedType :=
  VerificationType.mapM .ok (·.resolve labels) type

end DeclaredType

/-- Replace the class by its index. -/
def ResolvedType.encode (type : ResolvedType) (pool : ConstantPool) :
    Except Fault EncodedType :=
  VerificationType.mapM pool.classIndex .ok type

/-- **The bytes of a type**: a tag, and an index or offset where there is
one. -/
def EncodedType.bytes : EncodedType → Bytes
  | .top => [0]
  | .integer => [1]
  | .float => [2]
  | .double => [3]
  | .long => [4]
  | .null => [5]
  | .uninitializedThis => [6]
  | .object type => 7 :: Bytes.u2 type
  | .uninitialized place => 8 :: Bytes.u2 place

end BytecodeAssembler
