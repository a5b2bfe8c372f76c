/-!
# Types of fields and methods

A **field type** is a primitive type or a reference. A reference is kept in
the form a class constant holds it: the internal name of a class, such as
`java/lang/String`, and the whole descriptor of an array type, such as
`[[I`. A method has a list of parameter types and at most one result type.

Values of type `long` and `double` take two slots, everything else one.
-/

namespace BytecodeAssembler

/-- The primitive types. -/
inductive BaseType where
  | byte
  | char
  | double
  | float
  | int
  | long
  | short
  | boolean
  deriving DecidableEq, Repr, Hashable

namespace BaseType

/-- The letter that stands for the type in a descriptor. -/
def letter : BaseType → Char
  | .byte => 'B'
  | .char => 'C'
  | .double => 'D'
  | .float => 'F'
  | .int => 'I'
  | .long => 'J'
  | .short => 'S'
  | .boolean => 'Z'

/-- The type that a letter stands for. -/
def ofLetter? : Char → Option BaseType
  | 'B' => some .byte
  | 'C' => some .char
  | 'D' => some .double
  | 'F' => some .float
  | 'I' => some .int
  | 'J' => some .long
  | 'S' => some .short
  | 'Z' => some .boolean
  | _ => none

/-- Every letter stands for its own type. -/
@[simp] theorem ofLetter?_letter (t : BaseType) : ofLetter? t.letter = some t := by
  cases t <;> rfl

/-- The slots a value of the type takes. -/
def width : BaseType → Nat
  | .double | .long => 2
  | _ => 1

/-- **The integers a type accepts as a constant**, both ends included. Only
the types that are stored as `int` constants have such a range. -/
def intRange? : BaseType → Option (Int × Int)
  | .byte => some (-128, 127)
  | .char => some (0, 65535)
  | .short => some (-32768, 32767)
  | .boolean => some (0, 1)
  | .int => some (-2147483648, 2147483647)
  | .double | .float | .long => none

end BaseType

/-- **The type of a field, local variable or parameter.** -/
inductive FieldType where
  /-- A primitive type. -/
  | base (type : BaseType)
  /-- A class by its internal name, or an array type by its descriptor. -/
  | ref (name : String)
  deriving DecidableEq, Repr

namespace FieldType

/-- The slots a value of the type takes. -/
def width : FieldType → Nat
  | .base type => type.width
  | .ref _ => 1

/-- Whether the type is the class of strings. -/
def isString : FieldType → Bool
  | .ref name => name == "java/lang/String"
  | .base _ => false

/-- The characters of the descriptor. An array type is kept as its
descriptor already; a class name goes between `L` and `;`. -/
def chars : FieldType → List Char
  | .base type => [type.letter]
  | .ref name =>
    match name.toList with
    | '[' :: rest => '[' :: rest
    | cs => 'L' :: (cs ++ [';'])

/-- The descriptor of the type. -/
def render (t : FieldType) : String := String.ofList t.chars

end FieldType

/-- **The type of a method.** -/
structure MethodDescriptor where
  /-- The types of the parameters, in order. -/
  parameters : List FieldType
  /-- The type of the result; none for `void`. -/
  result : Option FieldType
  deriving DecidableEq, Repr

namespace MethodDescriptor

/-- **The slots the parameters take**, with one more for the receiver of a
method that has one. -/
def parameterSlots (d : MethodDescriptor) (receiver : Bool) : Nat :=
  (if receiver then 1 else 0) + d.parameters.foldr (fun type slots => type.width + slots) 0

/-- The characters of the descriptor. -/
def chars (d : MethodDescriptor) : List Char :=
  '(' :: (d.parameters.flatMap FieldType.chars ++ ')' :: d.result.elim ['V'] FieldType.chars)

/-- The descriptor of the method. -/
def render (d : MethodDescriptor) : String := String.ofList d.chars

end MethodDescriptor

end BytecodeAssembler
