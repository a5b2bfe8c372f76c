import BytecodeAssembler.Attribute
import BytecodeAssembler.StackMap.Frame

/-!
# Encoding of stack maps

In the **legacy** form every frame is written in full with its own offset,
and the frames are sorted by offset. In the **compact** form a frame is
written as a change to the frame before it, the first one as a change to
the locals on entry: the same locals, up to three locals less or more, or
everything in full. Its offset is given as the distance from the frame
before it, less one, so offsets have to grow strictly.
-/

namespace BytecodeAssembler

/-! ## Frames as they are written -/

/-- **A frame of the compact form.** -/
inductive CompactFrame where
  /-- The locals of the frame before, and an empty stack. -/
  | same (delta : UInt16)
  /-- The locals of the frame before, and one stack item. -/
  | sameOneStack (delta : UInt16) (stack : EncodedType)
  /-- The last `count` locals less, and an empty stack. -/
  | chop (delta : UInt16) (count : UInt8)
  /-- Some locals more, and an empty stack. -/
  | append (delta : UInt16) (locals : List EncodedType)
  /-- All locals and the whole stack. -/
  | full (delta : UInt16) (locals stack : List EncodedType)
  deriving DecidableEq, Repr

/-- A counted list of types. -/
def typesBytes (types : List EncodedType) : Bytes :=
  Bytes.counted (types.map EncodedType.bytes)

namespace CompactFrame

/-- **The bytes of a frame.** The tag says which form it has, and holds the
distance too where that is below 64. -/
def bytes : CompactFrame → Except Fault Bytes
  | .same delta =>
    .ok (if delta ≤ 63 then [delta.toUInt8] else 251 :: Bytes.u2 delta)
  | .sameOneStack delta stack =>
    .ok ((if delta ≤ 63 then [delta.toUInt8 + 64] else 247 :: Bytes.u2 delta)
      ++ stack.bytes)
  | .chop delta count =>
    if 1 ≤ count ∧ count ≤ 3 then .ok ((251 - count) :: Bytes.u2 delta)
    else .error .badChop
  | .append delta locals =>
    if 1 ≤ locals.length ∧ locals.length ≤ 3 then
      .ok ((251 + UInt8.ofNat locals.length)
        :: (Bytes.u2 delta ++ (locals.map EncodedType.bytes).flatten))
    else .error .badAppend
  | .full delta locals stack =>
    .ok (255 :: (Bytes.u2 delta ++ typesBytes locals ++ typesBytes stack))

end CompactFrame

/-- **A frame of the legacy form.** -/
structure LegacyFrame where
  /-- The offset in the code. -/
  offset : UInt16
  /-- The local variables. -/
  locals : List EncodedType
  /-- The stack. -/
  stack : List EncodedType
  deriving DecidableEq, Repr

/-- The bytes of a legacy frame. -/
def LegacyFrame.bytes (f : LegacyFrame) : Bytes :=
  Bytes.u2 f.offset ++ typesBytes f.locals ++ typesBytes f.stack

/-! ## From declared frames -/

/-- Replace the labels of several types by their offsets. -/
def resolveTypes (types : List DeclaredType) (labels : LabelTable) :
    Except Fault (List ResolvedType) :=
  types.mapM (DeclaredType.resolve · labels)

/-- Replace the classes of several types by their indices. -/
def encodeTypes (types : List ResolvedType) (pool : ConstantPool) :
    Except Fault (List EncodedType) :=
  types.mapM (ResolvedType.encode · pool)

/-- A frame with everything in full. -/
def fullFrame (delta : UInt16) (locals stack : List ResolvedType) (pool : ConstantPool) :
    Except Fault CompactFrame := do
  let locals ← encodeTypes locals pool
  let stack ← encodeTypes stack pool
  return .full delta locals stack

/-- **The shortest form of a frame** after one with the locals
`previous`. -/
def selectFrame (delta : UInt16) (previous locals stack : List ResolvedType)
    (pool : ConstantPool) : Except Fault CompactFrame :=
  match stack with
  | [item] =>
    if previous = locals then (item.encode pool).map (.sameOneStack delta)
    else fullFrame delta locals stack pool
  | [] =>
    if previous = locals then .ok (.same delta)
    else if previous.length < locals.length ∧ locals.length - previous.length ≤ 3
        ∧ previous.isPrefixOf locals then
      (encodeTypes (locals.drop previous.length) pool).map (.append delta)
    else if locals.length < previous.length ∧ previous.length - locals.length ≤ 3
        ∧ locals.isPrefixOf previous then
      .ok (.chop delta (UInt8.ofNat (previous.length - locals.length)))
    else fullFrame delta locals stack pool
  | _ => fullFrame delta locals stack pool

/-- The distance that is written for a frame after one at `previous`. -/
def offsetDelta (previous : Option UInt16) (offset : UInt16) : Except Fault UInt16 :=
  match previous with
  | none => .ok offset
  | some before =>
    if before < offset then .ok (offset - before - 1)
    else .error (.framesOutOfOrder offset before)

/-- Compact the remaining frames after one with the given locals and
offset. `rev` holds the frames before, last one first. -/
def compactFrom (pool : ConstantPool) (labels : LabelTable) :
    List Frame → List ResolvedType → Option UInt16 → List CompactFrame →
      Except Fault (List CompactFrame)
  | [], _, _, rev => .ok rev.reverse
  | frame :: rest, previous, before, rev => do
    let offset ← frame.offset.resolve labels
    let delta ← offsetDelta before offset
    let locals ← resolveTypes frame.locals.toList labels
    let stack ← resolveTypes frame.stack.toList labels
    let compact ← selectFrame delta previous locals stack pool
    compactFrom pool labels rest locals (some offset) (compact :: rev)

/-- **The frames in compact form**, starting from the locals on entry. -/
def compactFrames (frames : List Frame) (initial : List DeclaredType)
    (pool : ConstantPool) (labels : LabelTable) : Except Fault (List CompactFrame) := do
  let locals ← resolveTypes initial labels
  compactFrom pool labels frames locals none []

/-- A declared frame in legacy form. -/
def Frame.toLegacy (f : Frame) (pool : ConstantPool) (labels : LabelTable) :
    Except Fault LegacyFrame := do
  let offset ← f.offset.resolve labels
  let locals ← encodeTypes (← resolveTypes f.locals.toList labels) pool
  let stack ← encodeTypes (← resolveTypes f.stack.toList labels) pool
  return ⟨offset, locals, stack⟩

/-- **The frames in legacy form**, by offset; frames at the same offset keep
their order. -/
def legacyFrames (frames : List Frame) (pool : ConstantPool) (labels : LabelTable) :
    Except Fault (List LegacyFrame) := do
  let table ← frames.mapM (·.toLegacy pool labels)
  return table.mergeSort fun a b => a.offset ≤ b.offset

/-- **The stack map attribute of a body.** -/
def encodeStackMap (form : StackMapForm) (frames : List Frame)
    (initial : List DeclaredType) (pool : ConstantPool) (labels : LabelTable) :
    Except Fault Attribute :=
  match form with
  | .compact => do
    let table ← compactFrames frames initial pool labels
    let name ← pool.utf8Index form.attributeName
    let items ← table.mapM CompactFrame.bytes
    Attribute.make name (Bytes.counted items)
  | .legacy => do
    let table ← legacyFrames frames pool labels
    pool.makeAttribute form.attributeName (Bytes.counted (table.map LegacyFrame.bytes))

end BytecodeAssembler
