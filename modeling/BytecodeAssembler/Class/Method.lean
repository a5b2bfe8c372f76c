import BytecodeAssembler.Body.Encoding
import BytecodeAssembler.Class.Attributes
import BytecodeAssembler.ClassFile
import BytecodeAssembler.Descriptor.Reader

/-!
# Methods

A method has a body unless it is abstract or native. A body that does not
say how many local slots it needs gets as many as the parameters take, and
one that does not say how much stack it needs gets one slot.
-/

namespace BytecodeAssembler

/-- **A method of a class.** -/
structure Method where
  /-- The access flags. -/
  flags : AccessFlags .methods
  /-- The name. -/
  name : String
  /-- The descriptor. -/
  descriptor : String
  /-- The body. -/
  body : Option Body
  /-- The classes it declares to throw. -/
  exceptions : Array String
  /-- The annotations of each parameter that can be seen at run time. -/
  visibleParameters : Array (Array AnnotationTree)
  /-- The annotations of each parameter that cannot. -/
  invisibleParameters : Array (Array AnnotationTree)
  /-- The default value of an annotation element. -/
  defaultValue : Option ElementValue
  /-- The attributes. -/
  attributes : CommonAttributes

namespace Method

/-- A method without a body and without attributes. -/
def declare (flags : AccessFlags .methods) (name descriptor : String) : Method :=
  ⟨flags, name, descriptor, none, #[], #[], #[], none, .empty⟩

/-- Whether the method has no receiver. -/
def isStatic (m : Method) : Bool := m.flags.hasAny AccessFlags.staticBit

/-- **Whether the method may have a body**: abstract and native methods have
none. -/
def mayHaveCode (m : Method) : Bool :=
  !m.flags.hasAny (AccessFlags.abstractBit ||| AccessFlags.nativeBit)

/-- The constants of the annotations of parameters. -/
def parameterConstants (name : String) (parameters : Array (Array AnnotationTree)) :
    List Constant :=
  if parameters.isEmpty then []
  else .utf8 name :: parameters.toList.flatMap fun trees =>
    trees.toList.flatMap AnnotationTree.constants

/-- **The constants that a method needs**, in the order in which it
registers them. -/
def constants (m : Method) (form : StackMapForm) : List Constant :=
  [.utf8 m.name, .utf8 m.descriptor]
    ++ m.body.elim [] (fun body => body.constants form)
    ++ (if m.exceptions.isEmpty then []
      else .utf8 "Exceptions" :: m.exceptions.toList.map .classRef)
    ++ parameterConstants "RuntimeVisibleParameterAnnotations" m.visibleParameters
    ++ parameterConstants "RuntimeInvisibleParameterAnnotations" m.invisibleParameters
    ++ m.defaultValue.elim [] (fun value => .utf8 "AnnotationDefault" :: value.constants)
    ++ m.attributes.constants

/-- What the method tells its body. -/
def bodyContext (m : Method) (thisClass : String) (form : StackMapForm) :
    Except Fault BodyContext := do
  let descriptor ← MethodDescriptor.read m.descriptor
  let slots := descriptor.parameterSlots (!m.isStatic)
  if slots ≤ 65535 then
    return ⟨form, initialLocals thisClass m.name descriptor m.isStatic, UInt16.ofNat slots⟩
  else .error (.parameterSlots m.name slots)

/-- The attribute of the body. -/
def encodeBody (m : Method) (pool : ConstantPool) (thisClass : String)
    (form : StackMapForm) (body : Body) : Except Fault Attribute :=
  if m.mayHaveCode then do
    let context ← m.bodyContext thisClass form
    let code ← (body.encode pool context).2
    pool.makeAttribute "Code" code.bytes
  else .error (.codeNotAllowed m.name)

/-- The attribute of the classes thrown. -/
def encodeExceptions (m : Method) (pool : ConstantPool) : Except Fault Attribute := do
  let indices ← m.exceptions.toList.mapM pool.classIndex
  checkCount "thrown exceptions" indices.length
  pool.makeAttribute "Exceptions" (Bytes.counted (indices.map Bytes.u2))

/-- The attribute of the annotations of parameters, if there are any: the
number of parameters in one byte, then a counted list for each. -/
def encodeParameters (name : String) (parameters : Array (Array AnnotationTree))
    (pool : ConstantPool) : Except Fault (List Attribute) :=
  if parameters.isEmpty then .ok []
  else if 255 < parameters.size then .error (.annotatedParameters parameters.size)
  else do
    let lists ← parameters.toList.mapM fun trees =>
      (encodeAnnotations trees.toList pool).map Bytes.counted
    let info ← pool.makeAttribute name (UInt8.ofNat parameters.size :: lists.flatten)
    return [info]

/-- The attribute of the default value. -/
def encodeDefault (pool : ConstantPool) (value : ElementValue) : Except Fault Attribute := do
  let bytes ← value.encode pool
  pool.makeAttribute "AnnotationDefault" bytes

/-- **The method as it is written.** -/
def encode (m : Method) (pool : ConstantPool) (thisClass : String) (form : StackMapForm) :
    Except Fault (MemberInfo .methods) := do
  let code ← m.body.elim (.ok []) fun body =>
    (m.encodeBody pool thisClass form body).map ([·])
  let exceptions ←
    if m.exceptions.isEmpty then .ok [] else (m.encodeExceptions pool).map ([·])
  let visible ←
    encodeParameters "RuntimeVisibleParameterAnnotations" m.visibleParameters pool
  let invisible ←
    encodeParameters "RuntimeInvisibleParameterAnnotations" m.invisibleParameters pool
  let default ← m.defaultValue.elim (.ok []) fun value =>
    (encodeDefault pool value).map ([·])
  let common ← m.attributes.encode pool
  let attributes := code ++ exceptions ++ visible ++ invisible ++ default ++ common
  checkCount "method attributes" attributes.length
  let name ← pool.utf8Index m.name
  let descriptor ← pool.utf8Index m.descriptor
  return ⟨m.flags, name, descriptor, attributes⟩

end Method

end BytecodeAssembler
