import BytecodeAssembler.Instruction.Encoding
import BytecodeAssembler.Proofs.Bytes
import BytecodeAssembler.Proofs.ConstantPool.Numbering

/-!
# A decoder of instructions

A code array is read as a machine reads it: the opcode byte decides through
the instruction set which operand follows, the `wide` prefix makes local
variable operands twice as long, the table of a switch starts at a multiple
of four from the start of the code, and numbers are signed and big-endian.
The decoder knows nothing of the encoder: it keeps distances, indices and
padding as they stand in the code, and `Shows` says what instruction a
decoded one shows.
-/

namespace BytecodeAssembler

/-- **An operand as it stands in the code.** -/
inductive CodeOperand where
  | none
  | localVar (index : UInt16)
  | increment (index : UInt16) (delta : Int16)
  | byte (value : Int8)
  | short (value : Int16)
  | arrayType (code : UInt8)
  /-- The distance of a jump from the start of the instruction. -/
  | branch (distance : Int)
  /-- The index of a constant. -/
  | constant (index : PoolIndex)
  | interfaceMethod (index : PoolIndex) (slots : UInt8)
  | multiArray (index : PoolIndex) (dimensions : UInt8)
  | tableSwitch (padding : List UInt8) (fallback : Int) (low high : Int32)
      (distances : List Int)
  | lookupSwitch (padding : List UInt8) (fallback : Int) (pairs : List (Int32 × Int))
  deriving DecidableEq, Repr

/-- **An instruction as it stands in the code.** -/
structure CodeInstruction where
  /-- Where it starts. -/
  offset : Nat
  /-- Whether it has the `wide` prefix. -/
  wide : Bool
  /-- What to do. -/
  opcode : Opcode
  /-- What to do it with. -/
  operand : CodeOperand
  deriving DecidableEq, Repr

/-- The entry of the instruction set with the given opcode byte. -/
def Opcode.ofCode? (code : UInt8) : Option Opcode := all.find? fun entry => entry.code = code

/-- Read an opcode. -/
def readOpcode : Reader Opcode
  | code :: rest => (Opcode.ofCode? code).map (·, rest)
  | [] => none

/-- Read a byte that must be 0. -/
def readZero : Reader Unit
  | 0 :: rest => some ((), rest)
  | _ => none

/-- Read the distance of a wide jump. -/
def readDistance : Reader Int := readS4.map Int32.toInt

/-- Read a key and its distance. -/
def readPair : Reader (Int32 × Int) :=
  readS4.bind fun key => readDistance.map (Prod.mk key)

/-- The number of bytes up to the next multiple of four. -/
def gapToWord (position : Nat) : Nat := (position + 3) / 4 * 4 - position

/-- Read the rest of a `tableswitch`: the lowest key, the highest one, and a
distance for each key from the one to the other. -/
def readTable (padding : List UInt8) (fallback : Int) : Reader CodeOperand :=
  readS4.bind fun low => readS4.bind fun high =>
    if low ≤ high then
      (readDistance.many (high.toInt - low.toInt + 1).toNat).map
        (.tableSwitch padding fallback low high)
    else fun _ => none

/-- Read the rest of a `lookupswitch`: a count, and as many keys with their
distances. -/
def readLookup (padding : List UInt8) (fallback : Int) : Reader CodeOperand :=
  readS4.bind fun count =>
    if 0 ≤ count then
      (readPair.many count.toInt.toNat).map (.lookupSwitch padding fallback)
    else fun _ => none

/-- **Read the operand** of an instruction that starts at the given
offset. -/
def readOperand (offset : Nat) : OperandKind → Reader CodeOperand
  | .none => .pure .none
  | .localVar => readU1.map fun index => .localVar index.toUInt16
  | .increment => readU1.bind fun index => readS1.map fun delta =>
      .increment index.toUInt16 delta.toInt16
  | .byte => readS1.map .byte
  | .short => readS2.map .short
  | .arrayType => readU1.map .arrayType
  | .branch => readS2.map fun distance => .branch distance.toInt
  | .branchWide => readDistance.map .branch
  | .load => readU1.map fun index => .constant index.toUInt16
  | .loadWide | .loadTwo | .classRef | .field | .method => readU2.map .constant
  | .interfaceMethod => readU2.bind fun index => readU1.bind fun slots =>
      readZero.map fun _ => .interfaceMethod index slots
  | .multiArray => readU2.bind fun index => readU1.map (.multiArray index)
  | .tableSwitch => (readU1.many (gapToWord (offset + 1))).bind fun padding =>
      readDistance.bind (readTable padding)
  | .lookupSwitch => (readU1.many (gapToWord (offset + 1))).bind fun padding =>
      readDistance.bind (readLookup padding)

/-- Read the operand of an instruction with the `wide` prefix, which only
instructions on local variables can have. -/
def readWideOperand : OperandKind → Reader CodeOperand
  | .localVar => readU2.map .localVar
  | .increment => readU2.bind fun index => readS2.map (.increment index)
  | _ => fun _ => none

/-- **Read an instruction** that starts at the given offset. -/
def readInstruction (offset : Nat) : Reader CodeInstruction
  | [] => none
  | code :: rest =>
    if code = Opcode.wideCode then
      readOpcode.bind (fun opcode =>
        (readWideOperand opcode.kind).map (.mk offset true opcode)) rest
    else
      readOpcode.bind (fun opcode =>
        (readOperand offset opcode.kind).map (.mk offset false opcode)) (code :: rest)

/-- **Read all instructions** from the given offset on. Nothing is left
over. -/
def decodeFrom (offset : Nat) (bytes : Bytes) : Option (List CodeInstruction) :=
  if bytes = [] then some []
  else
    match readInstruction offset bytes with
    | none => none
    | some (instruction, rest) =>
      if rest.length < bytes.length then
        (decodeFrom (offset + (bytes.length - rest.length)) rest).map (instruction :: ·)
      else none
termination_by bytes.length

/-- **Read a code array.** -/
def decodeCode (code : Bytes) : Option (List CodeInstruction) := decodeFrom 0 code

/-! ## What a decoded instruction shows -/

/-- The load of a constant with an index of one byte. -/
def Opcode.ldc : Opcode := ⟨"ldc", 0x12, .load⟩

/-- The load of a constant with an index of two bytes. -/
def Opcode.ldcWide : Opcode := ⟨"ldc_w", 0x13, .loadWide⟩

/-- The distance from an instruction leads exactly to the offset of the
label. -/
def Reaches (labels : LabelTable) (start : Nat) (distance : Int) (target : Label) : Prop :=
  ∃ position : Nat, labels.offset target = .ok position ∧ (start : Int) + distance = position

/-- The index is the one of the constant, and the constant is what the pool
has at the index. -/
def Names (pool : ConstantPool) (index : PoolIndex) (c : Constant) : Prop :=
  pool.indexOf c = .ok index ∧ pool.constantAt? index = some c

/-- The padding after the opcode of a switch: as many zero bytes as bring the
table to a multiple of four. -/
def Aligns (start : Nat) (padding : List UInt8) : Prop :=
  (∀ byte ∈ padding, byte = 0) ∧ padding.length < 4 ∧ (start + 1 + padding.length) % 4 = 0

/-- **What instruction a decoded one shows**, at the offset `start`. Opcode
and operand are the same, except that a load goes by the size of its
index. -/
inductive Shows (pool : ConstantPool) (labels : LabelTable) (start : Nat) :
    Instruction → CodeInstruction → Prop where
  | none (opcode : Opcode) : Shows pool labels start ⟨opcode, .none⟩ ⟨start, false, opcode, .none⟩
  | localVar (opcode : Opcode) (index : UInt16) :
      Shows pool labels start ⟨opcode, .localVar index⟩
        ⟨start, 255 < index.toNat, opcode, .localVar index⟩
  | increment (opcode : Opcode) (index : UInt16) (delta : Int16) :
      Shows pool labels start ⟨opcode, .increment index delta⟩
        ⟨start, 255 < index.toNat ∨ delta.toInt < -128 ∨ 127 < delta.toInt, opcode,
          .increment index delta⟩
  | byte (opcode : Opcode) (value : Int8) :
      Shows pool labels start ⟨opcode, .byte value⟩ ⟨start, false, opcode, .byte value⟩
  | short (opcode : Opcode) (value : Int16) :
      Shows pool labels start ⟨opcode, .short value⟩ ⟨start, false, opcode, .short value⟩
  | arrayType (opcode : Opcode) (code : UInt8) :
      Shows pool labels start ⟨opcode, .arrayType code⟩ ⟨start, false, opcode, .arrayType code⟩
  | branch (opcode : Opcode) {target : Label} {distance : Int}
      (htarget : Reaches labels start distance target) :
      Shows pool labels start ⟨opcode, .branch target⟩ ⟨start, false, opcode, .branch distance⟩
  | load {c : Constant} {index : PoolIndex} (hindex : Names pool index c) :
      Shows pool labels start ⟨.ldc, .constant c⟩
        ⟨start, false, if 255 < index.toNat then .ldcWide else .ldc, .constant index⟩
  | constant {opcode : Opcode} (hopcode : opcode ≠ .ldc) {c : Constant} {index : PoolIndex}
      (hindex : Names pool index c) :
      Shows pool labels start ⟨opcode, .constant c⟩ ⟨start, false, opcode, .constant index⟩
  | interfaceMethod (opcode : Opcode) {c : Constant} {index : PoolIndex} (slots : UInt8)
      (hindex : Names pool index c) :
      Shows pool labels start ⟨opcode, .interfaceMethod c slots⟩
        ⟨start, false, opcode, .interfaceMethod index slots⟩
  | multiArray (opcode : Opcode) {c : Constant} {index : PoolIndex} (dimensions : UInt8)
      (hindex : Names pool index c) :
      Shows pool labels start ⟨opcode, .multiArray c dimensions⟩
        ⟨start, false, opcode, .multiArray index dimensions⟩
  | tableSwitch (opcode : Opcode) {low high : Int32} {fallback : Label} {targets : List Label}
      {padding : List UInt8} {distance : Int} {distances : List Int}
      (hpadding : Aligns start padding) (hfallback : Reaches labels start distance fallback)
      (hhigh : high.toInt = low.toInt + targets.length - 1)
      (htargets : List.Forall₂ (Reaches labels start) distances targets) :
      Shows pool labels start ⟨opcode, .tableSwitch low fallback targets⟩
        ⟨start, false, opcode, .tableSwitch padding distance low high distances⟩
  | lookupSwitch (opcode : Opcode) {fallback : Label} {pairs : List (Int32 × Label)}
      {padding : List UInt8} {distance : Int} {read : List (Int32 × Int)}
      (hpadding : Aligns start padding) (hfallback : Reaches labels start distance fallback)
      (hkeys : (read.map Prod.fst).Pairwise (· < ·))
      (hpairs : List.Forall₂ (fun r p => r.1 = p.1 ∧ Reaches labels start r.2 p.2) read pairs) :
      Shows pool labels start ⟨opcode, .lookupSwitch fallback pairs⟩
        ⟨start, false, opcode, .lookupSwitch padding distance read⟩

end BytecodeAssembler
