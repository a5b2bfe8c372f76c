import BytecodeAssembler.Fault.Basic

/-!
# Instructions

An instruction pairs an opcode with an operand. `Instruction.make` lets
only operands of the right shape through, puts the pairs of a
`lookupswitch` in ascending order of their keys, and refuses counts and
switches that have no encoding.
-/

namespace BytecodeAssembler

/-- **An opcode with its operand.** -/
structure Instruction where
  /-- What to do. -/
  opcode : Opcode
  /-- What to do it with. -/
  operand : Operand
  deriving DecidableEq, Repr

namespace Instruction

/-- The pairs of a switch in ascending order of their keys; pairs with
equal keys keep their order. -/
def sortPairs (pairs : List (Int32 × Label)) : List (Int32 × Label) :=
  pairs.mergeSort fun a b => a.1 ≤ b.1

/-- The first key that the pair after it has too. -/
def repeatedKey? : List (Int32 × Label) → Option Int32
  | a :: b :: rest => if a.1 = b.1 then some a.1 else repeatedKey? (b :: rest)
  | _ => none

/-- The operand of a `tableswitch`, which has at least one target and whose
last key is still an `int`. -/
def makeTableSwitch (low : Int32) (fallback : Label) (targets : List Label) :
    Except Fault Operand :=
  if targets.isEmpty then .error .emptyTableSwitch
  else if 2147483647 < low.toInt + targets.length - 1 then
    .error (.tableSwitchOverflow low)
  else .ok (.tableSwitch low fallback targets)

/-- The operand of a `lookupswitch`, whose keys are distinct and
ascending. -/
def makeLookupSwitch (fallback : Label) (pairs : List (Int32 × Label)) :
    Except Fault Operand :=
  let sorted := sortPairs pairs
  match repeatedKey? sorted with
  | some key => .error (.duplicateKey key)
  | none => .ok (.lookupSwitch fallback sorted)

/-- The operand that an opcode takes, if the given one has its shape. -/
def checkOperand (opcode : Opcode) (operand : Operand) : Except Fault Operand :=
  match opcode.kind, operand with
  | .none, .none => .ok .none
  | .localVar, .localVar index => .ok (.localVar index)
  | .increment, .increment index delta => .ok (.increment index delta)
  | .byte, .byte value => .ok (.byte value)
  | .short, .short value => .ok (.short value)
  | .arrayType, .arrayType code => .ok (.arrayType code)
  | .branch, .branch target => .ok (.branch target)
  | .branchWide, .branch target => .ok (.branch target)
  | .load, .constant c | .loadWide, .constant c =>
    if c.isLoadable then .ok (.constant c)
    else .error (.operandShape opcode (.constant c))
  | .loadTwo, .constant (.long value) => .ok (.constant (.long value))
  | .loadTwo, .constant (.double value) => .ok (.constant (.double value))
  | .classRef, .constant (.classRef name) => .ok (.constant (.classRef name))
  | .field, .constant (.fieldRef m) => .ok (.constant (.fieldRef m))
  | .method, .constant (.methodRef m) => .ok (.constant (.methodRef m))
  | .interfaceMethod, .interfaceMethod (.interfaceMethodRef m) slots =>
    if slots = 0 then .error .noArgumentSlots
    else .ok (.interfaceMethod (.interfaceMethodRef m) slots)
  | .multiArray, .multiArray (.classRef name) dimensions =>
    if dimensions = 0 then .error .noDimensions
    else .ok (.multiArray (.classRef name) dimensions)
  | .tableSwitch, .tableSwitch low fallback targets =>
    makeTableSwitch low fallback targets
  | .lookupSwitch, .lookupSwitch fallback pairs => makeLookupSwitch fallback pairs
  | _, operand => .error (.operandShape opcode operand)

/-- **Pair an opcode with an operand of its shape.** -/
def make (opcode : Opcode) (operand : Operand) : Except Fault Instruction :=
  (checkOperand opcode operand).map fun operand => ⟨opcode, operand⟩

/-- **The constant that the pool must hold** for the instruction to be
encoded. -/
def constant? (i : Instruction) : Option Constant :=
  match i.operand with
  | .constant c | .interfaceMethod c _ | .multiArray c _ => some c
  | _ => none

/-- **The labels that the instruction refers to**, the fallback of a switch
first. -/
def labels (i : Instruction) : List Label :=
  match i.operand with
  | .branch target => [target]
  | .tableSwitch _ fallback targets => fallback :: targets
  | .lookupSwitch fallback pairs => fallback :: pairs.map Prod.snd
  | _ => []

end Instruction

end BytecodeAssembler
