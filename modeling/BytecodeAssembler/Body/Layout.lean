import BytecodeAssembler.Body.Basic
import BytecodeAssembler.Instruction.Encoding

/-!
# Layout of method bodies

Layout walks the stream once and gives every instruction and every label
its **offset**: the sum of the sizes of the instructions before it. The
offset of a label is entered in the label table as the walk passes it, so
when the walk stops at an instruction without a size, the labels before it
have their offsets already.
-/

namespace BytecodeAssembler

/-- **A layout in progress.** -/
structure Layout where
  /-- The offset of each instruction passed. -/
  starts : Array Nat
  /-- The total size of the instructions passed. -/
  length : Nat
  /-- The labels, with the offsets of those passed. -/
  labels : LabelTable

namespace Layout

/-- Pass a label: it stands where the code so far ends. -/
def passLabel (layout : Layout) (label : Label) : Layout :=
  { layout with labels := layout.labels.setOffset label layout.length }

/-- Pass an instruction of a known size. -/
def passInstruction (layout : Layout) (size : Nat) : Layout :=
  { layout with
    starts := layout.starts.push layout.length
    length := layout.length + size }

/-- Pass the remaining elements, up to the first instruction without a
size. -/
def walk (pool : ConstantPool) : List Element → Layout → Layout × Option Fault
  | [], layout => (layout, none)
  | .label label :: rest, layout => walk pool rest (layout.passLabel label)
  | .instruction i :: rest, layout =>
    match i.size layout.length pool with
    | .error fault => (layout, some fault)
    | .ok size => walk pool rest (layout.passInstruction size)

end Layout

namespace Body

/-- The largest number of bytes in the code of a method. -/
def maxCodeLength : Nat := 65535

/-- **Lay out a body.** The labels passed keep their offsets even when the
layout fails. -/
def layout (b : Body) (pool : ConstantPool) : Body × Except Fault (List Nat × Nat) :=
  let (layout, fault?) := Layout.walk pool b.elements.toList ⟨#[], 0, b.labels⟩
  let result :=
    match fault? with
    | some fault => .error fault
    | none =>
      if layout.length ≤ maxCodeLength then .ok (layout.starts.toList, layout.length)
      else .error (.codeTooLong layout.length maxCodeLength)
  ({ b with labels := layout.labels }, result)

end Body

end BytecodeAssembler
