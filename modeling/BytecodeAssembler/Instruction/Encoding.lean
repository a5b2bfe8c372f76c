import BytecodeAssembler.ConstantPool.Basic
import BytecodeAssembler.Instruction.Basic
import BytecodeAssembler.Label.Table

/-!
# Encoding of instructions

The **size** of an instruction is known as soon as the pool is finalized:
it depends on the offset of the instruction only through the padding of a
switch, whose table starts at a multiple of four. The **bytes** need the
offsets of the labels too.

An instruction is written part by part, and a part can fail when a label
has no offset, a constant has no index or a jump is too far. The parts
before the failing one are written all the same, so the encoding is kept as
the list of its parts: an **emission**.
-/

namespace BytecodeAssembler

/-- The parts of an encoding, in order; each is bytes or the reason why
there are none. -/
abbrev Emission := List (Except Fault Bytes)

namespace Emission

/-- What is written: the parts in front of the first failing one. `rev`
holds the parts before, last one first. -/
def takeWritten : Emission → List Bytes → Bytes
  | .ok bytes :: rest, rev => takeWritten rest (bytes :: rev)
  | _, rev => rev.reverse.flatten

/-- **What is written**, also when a part fails. -/
def written (e : Emission) : Bytes := takeWritten e []

/-- **The bytes of all parts**, or the first failure. -/
def result (e : Emission) : Except Fault Bytes :=
  (e.mapM id).map List.flatten

end Emission

namespace Instruction

/-- **The padding after a switch opcode at the given offset**: it brings the
table to a multiple of four from the start of the code. -/
def padding (offset : Nat) : Nat := (4 - (offset + 1) % 4) % 4

/-- Whether an increment needs the `wide` prefix. -/
def isWideIncrement (index : UInt16) (delta : Int16) : Bool :=
  255 < index || delta < -128 || 127 < delta

/-- **The size of an instruction** at the given offset. -/
def size (i : Instruction) (offset : Nat) (pool : ConstantPool) : Except Fault Nat :=
  match i.operand with
  | .none => .ok 1
  | .localVar index => .ok (if 255 < index then 4 else 2)
  | .increment index delta => .ok (if isWideIncrement index delta then 6 else 3)
  | .byte _ | .arrayType _ => .ok 2
  | .short _ => .ok 3
  | .branch _ => .ok (if i.opcode.kind = .branchWide then 5 else 3)
  | .constant c =>
    if i.opcode.kind = .load then
      (pool.indexOf c).map fun index => if 255 < index then 3 else 2
    else .ok 3
  | .multiArray _ _ => .ok 4
  | .interfaceMethod _ _ => .ok 5
  | .tableSwitch _ _ targets => .ok (1 + padding offset + 12 + 4 * targets.length)
  | .lookupSwitch _ pairs => .ok (1 + padding offset + 8 + 8 * pairs.length)

/-- The distance from the offset of an instruction to a label. -/
def displacement (labels : LabelTable) (offset : Nat) (target : Label) : Except Fault Int :=
  (labels.offset target).map fun position => (position : Int) - offset

/-- A jump of two bytes, opcode included: the distance is found before
anything is written. -/
def narrowJump (opcode : Opcode) (labels : LabelTable) (offset : Nat) (target : Label) :
    Except Fault Bytes :=
  match displacement labels offset target with
  | .error fault => .error fault
  | .ok distance =>
    if -32768 ≤ distance ∧ distance ≤ 32767 then
      .ok (opcode.code :: Bytes.s2 (Int16.ofInt distance))
    else .error (.branchTooFar (labels.nameOf target) opcode.mnemonic distance)

/-- The four bytes of a distance. -/
def wideJump (labels : LabelTable) (offset : Nat) (target : Label) : Except Fault Bytes :=
  match displacement labels offset target with
  | .error fault => .error fault
  | .ok distance =>
    if -2147483648 ≤ distance ∧ distance ≤ 2147483647 then
      .ok (Bytes.s4 (Int32.ofInt distance))
    else .error (.jumpTooFar (labels.nameOf target) distance)

/-- An instruction with a constant. The short load is used as long as the
index fits in a byte. -/
def constantBytes (opcode : Opcode) (pool : ConstantPool) (c : Constant) :
    Except Fault Bytes :=
  (pool.indexOf c).map fun index =>
    if opcode.kind = .load then
      if 255 < index then Opcode.loadWideCode :: Bytes.u2 index
      else [opcode.code, index.toUInt8]
    else opcode.code :: Bytes.u2 index

/-- **The parts of an instruction** that starts at the given offset. -/
def emission (i : Instruction) (offset : Nat) (pool : ConstantPool) (labels : LabelTable) :
    Emission :=
  let code := i.opcode.code
  match i.operand with
  | .none => [.ok [code]]
  | .localVar index =>
    if 255 < index then [.ok (Opcode.wideCode :: code :: Bytes.u2 index)]
    else [.ok [code, index.toUInt8]]
  | .increment index delta =>
    if isWideIncrement index delta then
      [.ok (Opcode.wideCode :: code :: (Bytes.u2 index ++ Bytes.s2 delta))]
    else [.ok [code, index.toUInt8, delta.toUInt16.toUInt8]]
  | .byte value => [.ok (code :: Bytes.s1 value)]
  | .short value => [.ok (code :: Bytes.s2 value)]
  | .arrayType type => [.ok [code, type]]
  | .branch target =>
    if i.opcode.kind = .branchWide then [.ok [code], wideJump labels offset target]
    else [narrowJump i.opcode labels offset target]
  | .constant c => [constantBytes i.opcode pool c]
  | .interfaceMethod method slots =>
    [.ok [code], (pool.indexOf method).map Bytes.u2, .ok [slots, 0]]
  | .multiArray type dimensions =>
    [.ok [code], (pool.indexOf type).map Bytes.u2, .ok [dimensions]]
  | .tableSwitch low fallback targets =>
    .ok (code :: List.replicate (padding offset) 0)
      :: wideJump labels offset fallback
      :: .ok (Bytes.s4 low ++ Bytes.s4 (Int32.ofInt (low.toInt + targets.length - 1)))
      :: targets.map (wideJump labels offset)
  | .lookupSwitch fallback pairs =>
    .ok (code :: List.replicate (padding offset) 0)
      :: wideJump labels offset fallback
      :: .ok (Bytes.s4 (Int32.ofInt pairs.length))
      :: pairs.flatMap fun pair =>
        [.ok (Bytes.s4 pair.1), wideJump labels offset pair.2]

/-- **The bytes of an instruction** that starts at the given offset. -/
def encode (i : Instruction) (offset : Nat) (pool : ConstantPool) (labels : LabelTable) :
    Except Fault Bytes :=
  (i.emission offset pool labels).result

end Instruction

end BytecodeAssembler
