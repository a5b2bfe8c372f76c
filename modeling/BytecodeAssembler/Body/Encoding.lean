import BytecodeAssembler.Body.Layout
import BytecodeAssembler.StackMap.Encoding

/-!
# Encoding of method bodies

Once a body is laid out, its instructions are encoded one after the other,
and the tables beside them are written with offsets in the place of labels.
The tables come in a fixed order: exception handlers, then the attributes
for line numbers, local variables and the stack map, and last the
attributes that were given as they are.
-/

namespace BytecodeAssembler

/-- An exception handler as it is written. -/
structure HandlerEntry where
  /-- Where the guarded code starts. -/
  start : UInt16
  /-- Where it ends. -/
  finish : UInt16
  /-- Where the handler stands. -/
  target : UInt16
  /-- The class it catches, or 0 for everything. -/
  catchType : PoolIndex
  deriving DecidableEq, Repr

/-- The bytes of a handler. -/
def HandlerEntry.bytes (h : HandlerEntry) : Bytes :=
  Bytes.u2 h.start ++ Bytes.u2 h.finish ++ Bytes.u2 h.target ++ Bytes.u2 h.catchType

/-- A local variable as it is written. -/
structure VariableEntry where
  /-- Where it starts to be in scope. -/
  start : UInt16
  /-- The length of its scope. -/
  length : UInt16
  /-- The index of its name. -/
  name : PoolIndex
  /-- The index of its descriptor or signature. -/
  type : PoolIndex
  /-- The slot that holds it. -/
  index : UInt16
  deriving DecidableEq, Repr

/-- The bytes of a local variable. -/
def VariableEntry.bytes (v : VariableEntry) : Bytes :=
  Bytes.u2 v.start ++ Bytes.u2 v.length ++ Bytes.u2 v.name ++ Bytes.u2 v.type
    ++ Bytes.u2 v.index

/-- **The content of a `Code` attribute.** -/
structure Code where
  /-- The stack slots needed. -/
  maxStack : UInt16
  /-- The local slots needed. -/
  maxLocals : UInt16
  /-- The instructions. -/
  code : Bytes
  /-- The exception handlers. -/
  handlers : List HandlerEntry
  /-- The attributes. -/
  attributes : List Attribute
  deriving DecidableEq, Repr

/-- The bytes of a `Code` attribute's content. -/
def Code.bytes (c : Code) : Bytes :=
  Bytes.u2 c.maxStack ++ Bytes.u2 c.maxLocals ++ Bytes.u4 (UInt32.ofNat c.code.length)
    ++ c.code ++ Bytes.counted (c.handlers.map HandlerEntry.bytes)
    ++ Bytes.counted (c.attributes.map Attribute.bytes)

/-- **What a body takes from its method.** -/
structure BodyContext where
  /-- How stack maps are written. -/
  form : StackMapForm
  /-- The locals on entry. -/
  initialLocals : List DeclaredType
  /-- The local slots of a body that gives none. -/
  defaultMaxLocals : UInt16

namespace Body

/-- The offset of a label, as tables hold it. Offsets of a body that was
laid out fit in two bytes. -/
def position (b : Body) (label : Label) : Except Fault UInt16 :=
  (b.labels.offset label).map UInt16.ofNat

/-- **The bytes of the instructions**, each at its offset. -/
def encodeInstructions (b : Body) (starts : List Nat) (pool : ConstantPool) :
    Except Fault Bytes :=
  ((b.instructions.zip starts).mapM fun (entry : Instruction × Nat) =>
    entry.1.encode entry.2 pool b.labels).map List.flatten

/-- A handler with offsets. Its range must not be empty. -/
def encodeHandler (b : Body) (pool : ConstantPool) (h : Handler) :
    Except Fault HandlerEntry := do
  let start ← b.position h.start
  let finish ← b.position h.finish
  if finish ≤ start then
    .error (.emptyHandlerRange (b.labels.nameOf h.start) (b.labels.nameOf h.finish))
  else
    let target ← b.position h.target
    let catchType ← h.catchType.elim (.ok 0) pool.classIndex
    return ⟨start, finish, target, catchType⟩

/-- The line numbers with offsets. -/
def encodeLines (b : Body) (pool : ConstantPool) : Except Fault Attribute := do
  let entries ← b.lines.toList.mapM fun entry =>
    (b.position entry.start).map fun start => Bytes.u2 start ++ Bytes.u2 entry.line
  checkCount "line numbers" entries.length
  pool.makeAttribute "LineNumberTable" (Bytes.counted entries)

/-- A local variable with offsets, and once more with its signature if it
has one. Its scope must not end before it starts. -/
def encodeVariable (b : Body) (pool : ConstantPool) (v : LocalVariable) :
    Except Fault (VariableEntry × Option VariableEntry) := do
  let start ← b.position v.start
  let finish ← b.position v.finish
  if finish < start then .error (.localEndsFirst v.name)
  else
    let name ← pool.utf8Index v.name
    let descriptor ← pool.utf8Index v.descriptor
    let entry : VariableEntry := ⟨start, finish - start, name, descriptor, v.index⟩
    match v.signature with
    | none => return (entry, none)
    | some signature =>
      let signature ← pool.utf8Index signature
      return (entry, some { entry with type := signature })

/-- The local variables and, if any of them has a signature, the table of
signatures. -/
def encodeVariables (b : Body) (pool : ConstantPool) : Except Fault (List Attribute) := do
  let entries ← b.localVariables.toList.mapM (b.encodeVariable pool)
  checkCount "local variables" entries.length
  let table ← pool.makeAttribute "LocalVariableTable"
    (Bytes.counted (entries.map fun entry => entry.1.bytes))
  match entries.filterMap Prod.snd with
  | [] => return [table]
  | signatures =>
    let types ← pool.makeAttribute "LocalVariableTypeTable"
      (Bytes.counted (signatures.map VariableEntry.bytes))
    return [table, types]

/-- The stack map. -/
def encodeFrames (b : Body) (pool : ConstantPool) (context : BodyContext) :
    Except Fault Attribute := do
  checkCount "stack map frames" b.frames.size
  encodeStackMap context.form b.frames.toList context.initialLocals pool b.labels

/-- **The attributes of a body.** A table without entries is left out. -/
def encodeAttributes (b : Body) (pool : ConstantPool) (context : BodyContext) :
    Except Fault (List Attribute) := do
  let lines ← if b.lines.isEmpty then .ok [] else (b.encodeLines pool).map ([·])
  let locals ← if b.localVariables.isEmpty then .ok [] else b.encodeVariables pool
  let frames ←
    if b.frames.isEmpty then .ok [] else (b.encodeFrames pool context).map ([·])
  let custom ← b.attributes.toList.mapM (·.encode pool)
  let attributes := lines ++ locals ++ frames ++ custom
  checkCount "code attributes" attributes.length
  return attributes

/-- **The code of a body that is laid out**, from the offsets of its
instructions. -/
def encodeLaidOut (b : Body) (starts : List Nat) (pool : ConstantPool)
    (context : BodyContext) : Except Fault Code := do
  let code ← b.encodeInstructions starts pool
  let handlers ← b.handlers.toList.mapM (b.encodeHandler pool)
  checkCount "exception handlers" handlers.length
  let attributes ← b.encodeAttributes pool context
  return {
    maxStack := b.maxStack.getD 1
    maxLocals := b.maxLocals.getD context.defaultMaxLocals
    code, handlers, attributes }

/-- **Lay out a body and encode it.** The body returned has the offsets of
its labels. -/
def encode (b : Body) (pool : ConstantPool) (context : BodyContext) :
    Body × Except Fault Code :=
  let (b, laidOut) := b.layout pool
  (b, laidOut.bind fun (starts, _) => b.encodeLaidOut starts pool context)

end Body

end BytecodeAssembler
