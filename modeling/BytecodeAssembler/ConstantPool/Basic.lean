import BytecodeAssembler.ConstantPool.Entry
import BytecodeAssembler.Fault.Basic
import BytecodeAssembler.Text.ModifiedUtf8
import Std.Data.HashMap

/-!
# The constant pool

A pool is used in two phases. First constants are **added** in whatever
order they turn up, each followed by the constants it refers to and each
only once. Then the pool is **finalized**: every constant gets its index,
counted from 1 in the order of the entries, and nothing can be added any
more. Indices cannot be given out earlier, since the size of an instruction
can depend on the index of its constant.
-/

namespace BytecodeAssembler

/-- The indices that finalizing gives. -/
structure Numbering where
  /-- The index of each entry. -/
  indices : Array PoolIndex
  /-- One more than the last index in use. -/
  count : UInt16
  deriving Repr

/-- **The constants of a class.** -/
structure ConstantPool where
  /-- The constants, in the order in which they were added. -/
  entries : Array Constant
  /-- The place of every constant among the entries. -/
  positions : Std.HashMap Constant Nat
  /-- The indices, once the pool is finalized. -/
  numbering : Option Numbering

namespace ConstantPool

/-- A pool without constants. -/
def empty : ConstantPool := ⟨#[], ∅, none⟩

instance : Inhabited ConstantPool := ⟨empty⟩

/-- Whether the indices have been given out. -/
def isFinal (pool : ConstantPool) : Bool := pool.numbering.isSome

/-- The number of constants, not of indices. -/
def size (pool : ConstantPool) : Nat := pool.entries.size

/-! ## Adding constants -/

/-- Append a constant unless it is there already. -/
def insert (pool : ConstantPool) (c : Constant) : ConstantPool :=
  if pool.positions.contains c then pool
  else
    let position := pool.entries.size
    { pool with
      entries := pool.entries.push c
      positions := pool.positions.insert c position }

/-- Append a constant and everything it refers to. A constant that is there
already brings nothing new. -/
def register (pool : ConstantPool) (c : Constant) : ConstantPool :=
  if pool.positions.contains c then pool else c.withDependencies.foldl insert pool

/-- Check that constants can still be added. -/
def checkOpen (pool : ConstantPool) (c : Constant) : Except Fault Unit :=
  if pool.isFinal then .error (.poolClosed c) else .ok ()

/-- **Add a constant and everything it refers to.** -/
def add (pool : ConstantPool) (c : Constant) : Except Fault ConstantPool :=
  (pool.checkOpen c).map fun () => pool.register c

/-- Add several constants, in order. -/
def addAll (pool : ConstantPool) (constants : List Constant) : Except Fault ConstantPool :=
  constants.foldlM add pool

/-! ## Numbering -/

/-- Number the remaining constants from `next` on, after the indices
`done`. The largest index in use must stay below 65535. -/
def numberFrom : List Constant → Nat → Array PoolIndex → Except Fault Numbering
  | [], next, done => .ok ⟨done, UInt16.ofNat next⟩
  | c :: rest, next, done =>
    if next + c.width ≤ 65535 then
      numberFrom rest (next + c.width) (done.push (UInt16.ofNat next))
    else .error (.poolOverflow c next)

/-- **Give every constant its index.** -/
def finalize (pool : ConstantPool) : Except Fault ConstantPool :=
  if pool.isFinal then .error .poolAlreadyFinal
  else
    match numberFrom pool.entries.toList 1 #[] with
    | .error fault => .error fault
    | .ok numbering => .ok { pool with numbering := some numbering }

/-- **The index of a constant** of a finalized pool. -/
def indexOf (pool : ConstantPool) (c : Constant) : Except Fault PoolIndex :=
  match pool.numbering with
  | none => .error (.indexBeforeFinal c)
  | some numbering =>
    match pool.positions[c]? with
    | none => .error (.notRegistered c)
    | some position => .ok (numbering.indices.getD position 0)

/-- The index of a text. -/
def utf8Index (pool : ConstantPool) (text : String) : Except Fault PoolIndex :=
  pool.indexOf (.utf8 text)

/-- The index of a class. -/
def classIndex (pool : ConstantPool) (name : String) : Except Fault PoolIndex :=
  pool.indexOf (.classRef name)

/-- One more than the last index in use, which is what a class file
holds. -/
def count (pool : ConstantPool) : Except Fault UInt16 :=
  match pool.numbering with
  | none => .error .countBeforeFinal
  | some numbering => .ok numbering.count

/-! ## Entries -/

/-- The class and the name-and-type of a member. -/
def memberIndices (pool : ConstantPool) (m : MemberRef) :
    Except Fault (PoolIndex × PoolIndex) := do
  let owner ← pool.classIndex m.owner
  let member ← pool.indexOf (.nameAndType m.name m.descriptor)
  return (owner, member)

/-- **A constant as it stands in the class file**, with indices for what it
refers to. -/
def resolve (pool : ConstantPool) : Constant → Except Fault PoolEntry
  | .utf8 text =>
    let bytes := Text.modifiedUtf8 text
    if bytes.length ≤ 65535 then .ok (.utf8 bytes)
    else .error (.textTooLong bytes.length)
  | .integer value => .ok (.integer value)
  | .float value => .ok (.float value)
  | .long value => .ok (.long value)
  | .double value => .ok (.double value)
  | .classRef name => do return .classRef (← pool.utf8Index name)
  | .string text => do return .string (← pool.utf8Index text)
  | .nameAndType name descriptor => do
    let name ← pool.utf8Index name
    let descriptor ← pool.utf8Index descriptor
    return .nameAndType name descriptor
  | .fieldRef m => do
    let (owner, member) ← pool.memberIndices m
    return .fieldRef owner member
  | .methodRef m => do
    let (owner, member) ← pool.memberIndices m
    return .methodRef owner member
  | .interfaceMethodRef m => do
    let (owner, member) ← pool.memberIndices m
    return .interfaceMethodRef owner member

/-- **The entries of the pool**, in the order of their indices. -/
def poolEntries (pool : ConstantPool) : Except Fault (List PoolEntry) :=
  pool.entries.toList.mapM pool.resolve

end ConstantPool

end BytecodeAssembler
