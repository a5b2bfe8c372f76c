import BytecodeAssembler.Attribute

/-!
# Annotations

An annotation has a type and named **element values**, in the order in
which they were given. A value can be an annotation itself or an array of
values, so annotations are trees of any depth.

The functions over these trees come in families, one for each kind of node
and one for each kind of list. A list is walked with what was found before
it in hand, so that a long list is no deeper than a short one.
-/

namespace BytecodeAssembler

open Number (Binary32 Binary64)

mutual

/-- **The value of an annotation element.** -/
inductive ElementValue where
  /-- A value that is stored as an `int`. -/
  | integer (type : BaseType) (value : Int32)
  | float (value : Binary32)
  | long (value : Int64)
  | double (value : Binary64)
  | string (text : String)
  /-- A constant of an enumeration, by the descriptor of its type. -/
  | enum (type name : String)
  /-- A class, by the descriptor of a result of its type. -/
  | classType (descriptor : String)
  /-- Another annotation. -/
  | nested (tree : AnnotationTree)
  /-- An array of values. -/
  | array (values : List ElementValue)

/-- **An annotation**: its type and its elements. -/
structure AnnotationTree where
  /-- The descriptor of the type. -/
  type : String
  /-- The elements with their names. -/
  elements : List (String × ElementValue)

end

namespace ElementValue

/-- **An element that is stored as an `int`**, if the value fits its
type. -/
def ofInt (type : BaseType) (value : Int64) : Except Fault ElementValue :=
  match type.intRange? with
  | none => .error (.notIntegerElement type)
  | some (low, high) =>
    if low ≤ value.toInt ∧ value.toInt ≤ high then
      .ok (.integer type (Int32.ofInt value.toInt))
    else .error (.elementRange value.toInt type)

/-- The tag of a value that is stored as an `int`: the letter of its type,
and that of `int` for a type with no letter of its own here. -/
def integerTag : BaseType → UInt8
  | .byte => 0x42
  | .char => 0x43
  | .short => 0x53
  | .boolean => 0x5a
  | .int | .long | .float | .double => 0x49

end ElementValue

/-! ## Constants -/

mutual

/-- Append the constants of a value to those found before. -/
def ElementValue.collect : ElementValue → Array Constant → Array Constant
  | .integer _ value, found => found.push (.integer value)
  | .float value, found => found.push (.float value)
  | .long value, found => found.push (.long value)
  | .double value, found => found.push (.double value)
  | .string text, found => found.push (.utf8 text)
  | .enum type name, found => (found.push (.utf8 type)).push (.utf8 name)
  | .classType descriptor, found => found.push (.utf8 descriptor)
  | .nested tree, found => tree.collect found
  | .array values, found => collectValues values found

/-- Append the constants of a tree to those found before. -/
def AnnotationTree.collect : AnnotationTree → Array Constant → Array Constant
  | ⟨type, elements⟩, found => collectElements elements (found.push (.utf8 type))

/-- Append the constants of several values to those found before. -/
def collectValues : List ElementValue → Array Constant → Array Constant
  | [], found => found
  | value :: rest, found => collectValues rest (value.collect found)

/-- Append the constants of several elements to those found before. -/
def collectElements : List (String × ElementValue) → Array Constant → Array Constant
  | [], found => found
  | (name, value) :: rest, found =>
    collectElements rest (value.collect (found.push (.utf8 name)))

end

/-- **The constants that an annotation needs**, in the order in which it
registers them. -/
def AnnotationTree.constants (tree : AnnotationTree) : List Constant :=
  (tree.collect #[]).toList

/-- The constants that a value needs. -/
def ElementValue.constants (value : ElementValue) : List Constant :=
  (value.collect #[]).toList

/-! ## Bytes -/

mutual

/-- **The bytes of a value**: a tag, and what the tag calls for. -/
def ElementValue.encode (pool : ConstantPool) : ElementValue → Except Fault Bytes
  | .integer type value =>
    (pool.indexOf (.integer value)).map (ElementValue.integerTag type :: Bytes.u2 ·)
  | .float value => (pool.indexOf (.float value)).map (0x46 :: Bytes.u2 ·)
  | .long value => (pool.indexOf (.long value)).map (0x4a :: Bytes.u2 ·)
  | .double value => (pool.indexOf (.double value)).map (0x44 :: Bytes.u2 ·)
  | .string text => (pool.utf8Index text).map (0x73 :: Bytes.u2 ·)
  | .enum type name => do
    let type ← pool.utf8Index type
    let name ← pool.utf8Index name
    return 0x65 :: (Bytes.u2 type ++ Bytes.u2 name)
  | .classType descriptor => (pool.utf8Index descriptor).map (0x63 :: Bytes.u2 ·)
  | .nested tree => (tree.encode pool).map (0x40 :: ·)
  | .array values => do
    checkCount "array element values" values.length
    let items ← encodeValues pool values []
    return 0x5b :: Bytes.counted items

/-- **The bytes of an annotation**: its type and its counted elements. -/
def AnnotationTree.encode (pool : ConstantPool) : AnnotationTree → Except Fault Bytes
  | ⟨type, elements⟩ => do
    let items ← encodeElements pool elements []
    checkCount "annotation elements" items.length
    let type ← pool.utf8Index type
    return Bytes.u2 type ++ Bytes.counted items

/-- The bytes of several values, after those of the values before, last one
first. -/
def encodeValues (pool : ConstantPool) :
    List ElementValue → List Bytes → Except Fault (List Bytes)
  | [], rev => .ok rev.reverse
  | value :: rest, rev =>
    match value.encode pool with
    | .error fault => .error fault
    | .ok bytes => encodeValues pool rest (bytes :: rev)

/-- The bytes of several elements, after those of the elements before, last
one first. -/
def encodeElements (pool : ConstantPool) :
    List (String × ElementValue) → List Bytes → Except Fault (List Bytes)
  | [], rev => .ok rev.reverse
  | (name, value) :: rest, rev =>
    match pool.utf8Index name with
    | .error fault => .error fault
    | .ok index =>
      match value.encode pool with
      | .error fault => .error fault
      | .ok bytes => encodeElements pool rest ((Bytes.u2 index ++ bytes) :: rev)

end

/-- The bytes of each of several annotations, whose number must fit a
two-byte count. -/
def encodeAnnotations (trees : List AnnotationTree) (pool : ConstantPool) :
    Except Fault (List Bytes) := do
  checkCount "annotations" trees.length
  trees.mapM (AnnotationTree.encode pool)

end BytecodeAssembler
