import BytecodeAssembler.Descriptor.Reader
import BytecodeAssembler.Instruction.Narrow
import BytecodeAssembler.Label.Table

/-!
# Operands from arguments

An argument becomes an operand by narrowing its numbers and mentioning its
labels. Which arguments are possible depends on the opcode. Labels that
were mentioned before a fault stay in the table: a label that is mentioned
has to be placed in the end, whatever became of the instruction.
-/

namespace BytecodeAssembler

/-- The code of a primitive array type. -/
def arrayTypeCode (name : String) : Except Fault UInt8 :=
  match name with
  | "boolean" => .ok 4
  | "char" => .ok 5
  | "float" => .ok 6
  | "double" => .ok 7
  | "byte" => .ok 8
  | "short" => .ok 9
  | "int" => .ok 10
  | "long" => .ok 11
  | _ => .error (.notArrayType name)

/-- The method of an interface with the argument slots that its descriptor
gives, receiver included. -/
def interfaceOperand (m : MemberRef) : Except Fault Operand := do
  let descriptor ← MethodDescriptor.read m.descriptor
  let slots ← narrowU1 "invokeinterface argument count"
    (Int64.ofNat (descriptor.parameterSlots true))
  return .interfaceMethod (.interfaceMethodRef m) slots

namespace Argument

/-- The operand of an argument without labels. -/
def resolvePlain (argument : Argument) (opcode : Opcode) : Except Fault Operand :=
  match opcode.kind, argument with
  | .none, .none => .ok .none
  | .localVar, .int index =>
    (narrowU2 "local variable index" index).map .localVar
  | .increment, .intPair index delta => do
    let index ← narrowU2 "local variable index" index
    let delta ← narrowS2 "iinc increment" delta
    return .increment index delta
  | .byte, .int value => (narrowS1 "bipush value" value).map .byte
  | .short, .int value => (narrowS2 "sipush value" value).map .short
  | .arrayType, .word name => (arrayTypeCode name).map .arrayType
  | .arrayType, .int code => (narrowU1 "array type code" code).map .arrayType
  | .load, .int value | .loadWide, .int value =>
    (narrowS4 "int constant" value).map fun n => .constant (.integer n)
  | .load, .float value | .loadWide, .float value =>
    .ok (.constant (.float value.toBinary32))
  | .load, .string text | .loadWide, .string text => .ok (.constant (.string text))
  | .load, .word name | .loadWide, .word name => .ok (.constant (.classRef name))
  | .loadTwo, .int value => .ok (.constant (.long value))
  | .loadTwo, .float value => .ok (.constant (.double value))
  | .classRef, .word name => .ok (.constant (.classRef name))
  | .field, .member m => .ok (.constant (.fieldRef m))
  | .method, .member m => .ok (.constant (.methodRef m))
  | .interfaceMethod, .member m => interfaceOperand m
  | .interfaceMethod, .interfaceMember m slots =>
    (narrowU1 "invokeinterface argument count" slots).map
      (.interfaceMethod (.interfaceMethodRef m))
  | .multiArray, .wordInt name dimensions =>
    (narrowU1 "multianewarray dimensions" dimensions).map (.multiArray (.classRef name))
  | _, argument => .error (.argumentShape opcode.mnemonic argument)

/-- The low end of a `tableswitch`. An upper end that is given has to agree
with the number of targets. The two are compared as numbers of any size: a low
end so close to the end of 64 bits that the sum would leave them is added
without wrapping, so no upper end agrees with it, and the table is refused for
its targets and not for its range. -/
def tableLow (low : Int64) (high : Option Int64) (count : Nat) : Except Fault Int32 :=
  match high with
  | .some high =>
    if high.toInt = low.toInt + count - 1 then narrowS4 "tableswitch low bound" low
    else .error (.tableSwitchTargets low.toInt high.toInt count)
  | .none => narrowS4 "tableswitch low bound" low

/-- The pairs of a `lookupswitch`, each key narrowed before its label is
mentioned. `rev` holds the pairs before, last one first. -/
def lookupPairs : List (Int64 × String) → List (Int32 × Label) → LabelTable →
    Except Fault (List (Int32 × Label)) × LabelTable
  | [], rev, labels => (.ok rev.reverse, labels)
  | (key, target) :: rest, rev, labels =>
    match narrowS4 "lookupswitch key" key with
    | .error fault => (.error fault, labels)
    | .ok key =>
      let (label, labels) := labels.mention target
      lookupPairs rest ((key, label) :: rev) labels

/-- **The operand that an argument gives**, and the labels with those that
it mentions. -/
def resolve (argument : Argument) (opcode : Opcode) (labels : LabelTable) :
    Except Fault Operand × LabelTable :=
  match opcode.kind, argument with
  | .branch, .word name | .branchWide, .word name =>
    let (label, labels) := labels.mention name
    (.ok (.branch label), labels)
  | .tableSwitch, .tableSwitch low high targets fallback =>
    match tableLow low high targets.length with
    | .error fault => (.error fault, labels)
    | .ok low =>
      let (fallback, labels) := labels.mention fallback
      let (targets, labels) := labels.mentionAll targets
      (.ok (.tableSwitch low fallback targets), labels)
  | .lookupSwitch, .lookupSwitch pairs fallback =>
    match lookupPairs pairs [] labels with
    | (.error fault, labels) => (.error fault, labels)
    | (.ok pairs, labels) =>
      let (fallback, labels) := labels.mention fallback
      (.ok (.lookupSwitch fallback pairs), labels)
  | _, argument => (argument.resolvePlain opcode, labels)

end Argument

end BytecodeAssembler
