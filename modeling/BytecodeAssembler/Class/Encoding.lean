import BytecodeAssembler.Class.Basic

/-!
# Encoding of classes

The **registration** pass lists every constant that the class will need:
the class and the classes it mentions in its header, then its fields, its
methods and its attributes. The **lowering** pass looks the same constants
up again. The two go through the class in the same order, and a constant
that lowering looks up is always one that registration has listed.
-/

namespace BytecodeAssembler

/-- The constants of an enclosing class and method. -/
def Enclosing.constants (e : Enclosing) : List Constant :=
  [.utf8 "EnclosingMethod", .classRef e.owner]
    ++ e.method.elim [] fun (name, descriptor) => [.nameAndType name descriptor]

/-- The attribute of an enclosing class and method. -/
def Enclosing.encode (e : Enclosing) (pool : ConstantPool) : Except Fault Attribute := do
  let method ← e.method.elim (.ok 0) fun (name, descriptor) =>
    pool.indexOf (.nameAndType name descriptor)
  let owner ← pool.classIndex e.owner
  pool.makeAttribute "EnclosingMethod" (Bytes.u2 owner ++ Bytes.u2 method)

/-- The constants of an inner class. -/
def InnerClass.constants (c : InnerClass) : List Constant :=
  (c.inner.toList ++ c.outer.toList).map .classRef ++ c.name.toList.map .utf8

/-- The bytes of an inner class. -/
def InnerClass.encode (c : InnerClass) (pool : ConstantPool) : Except Fault Bytes := do
  let inner ← c.inner.elim (.ok 0) pool.classIndex
  let outer ← c.outer.elim (.ok 0) pool.classIndex
  let name ← c.name.elim (.ok 0) pool.utf8Index
  return Bytes.u2 inner ++ Bytes.u2 outer ++ Bytes.u2 name ++ c.flags.bytes

namespace Class

/-! ## Registration -/

/-- The constants of the class's own attributes. -/
def attributeConstants (c : Class) : List Constant :=
  c.sourceFile.elim [] (fun file => [.utf8 "SourceFile", .utf8 file])
    ++ c.enclosing.elim [] Enclosing.constants
    ++ (if c.innerClasses.isEmpty then []
      else .utf8 "InnerClasses" :: c.innerClasses.toList.flatMap InnerClass.constants)
    ++ (if c.debugExtension.isSome then [.utf8 "SourceDebugExtension"] else [])
    ++ c.attributes.constants

/-- **The constants that a class needs**, in the order in which it registers
them. -/
def constants (c : Class) (name : String) (form : StackMapForm) : List Constant :=
  .classRef name :: (c.superClass.toList.map .classRef
    ++ c.interfaces.toList.map .classRef
    ++ c.fields.toList.flatMap Field.constants
    ++ c.methods.toList.flatMap (·.constants form)
    ++ c.attributeConstants)

/-! ## Lowering -/

/-- The attribute of the inner classes. -/
def encodeInnerClasses (c : Class) (pool : ConstantPool) : Except Fault Attribute := do
  let items ← c.innerClasses.toList.mapM (·.encode pool)
  checkCount "inner classes" items.length
  pool.makeAttribute "InnerClasses" (Bytes.counted items)

/-- The attribute of the source file. -/
def encodeSourceFile (pool : ConstantPool) (file : String) : Except Fault Attribute := do
  let index ← pool.utf8Index file
  pool.makeAttribute "SourceFile" (Bytes.u2 index)

/-- **The attributes of the class.** -/
def encodeAttributes (c : Class) (pool : ConstantPool) : Except Fault (List Attribute) := do
  let source ← c.sourceFile.elim (.ok []) fun file =>
    (encodeSourceFile pool file).map ([·])
  let enclosing ← c.enclosing.elim (.ok []) fun e => (e.encode pool).map ([·])
  let inner ←
    if c.innerClasses.isEmpty then .ok [] else (c.encodeInnerClasses pool).map ([·])
  let debug ← c.debugExtension.elim (.ok []) fun text =>
    (pool.makeAttribute "SourceDebugExtension" (Text.modifiedUtf8 text)).map ([·])
  let common ← c.attributes.encode pool
  let attributes := source ++ enclosing ++ inner ++ debug ++ common
  checkCount "class attributes" attributes.length
  return attributes

/-- **Write a class** with the indices of a finalized pool. -/
def lower (c : Class) (name : String) (form : StackMapForm) (pool : ConstantPool) :
    Except Fault ClassFile := do
  let thisClass ← pool.classIndex name
  let superClass ← c.superClass.elim (.ok 0) pool.classIndex
  let interfaces ← c.interfaces.toList.mapM pool.classIndex
  checkCount "interfaces" interfaces.length
  let attributes ← c.encodeAttributes pool
  let fields ← c.fields.toList.mapM (·.encode pool)
  checkCount "fields" fields.length
  let methods ← c.methods.toList.mapM (·.encode pool name form)
  checkCount "methods" methods.length
  let poolCount ← pool.count
  let constants ← pool.poolEntries
  return {
    version := c.version
    flags := c.flags
    poolCount, constants, thisClass, superClass, interfaces, fields, methods, attributes }

/-- The name of a class that can be encoded: one that has a class above it,
or the one class that needs none. -/
def checkNames (c : Class) : Except Fault String :=
  match c.thisClass with
  | none => .error .unnamedClass
  | some name =>
    if c.superClass.isSome ∨ name = rootName then .ok name
    else .error (.noSuperClass name)

/-- **Encode a class**: register its constants, number them, and write
it. -/
def encode (c : Class) : Except Fault ClassFile := do
  let name ← c.checkNames
  let form := c.version.stackMapForm
  let pool ← ConstantPool.empty.addAll (c.constants name form)
  let pool ← pool.finalize
  c.lower name form pool

end Class

end BytecodeAssembler
