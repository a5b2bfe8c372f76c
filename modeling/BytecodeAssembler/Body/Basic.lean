import BytecodeAssembler.Attribute
import BytecodeAssembler.Instruction.Basic
import BytecodeAssembler.StackMap.Frame

/-!
# Method bodies

A body is a **stream** of instructions and labels, to which elements are
only ever appended, with tables beside it that refer to places in the
stream by label: exception handlers, line numbers, local variables and
stack map frames. Nothing in a body has an offset before it is laid out.
-/

namespace BytecodeAssembler

/-- **An element of the instruction stream.** -/
inductive Element where
  /-- An instruction, which takes bytes. -/
  | instruction (value : Instruction)
  /-- A mark between instructions, which takes none. -/
  | label (target : Label)
  deriving DecidableEq, Repr

/-- The instruction of an element, if it is one. -/
def Element.instruction? : Element → Option Instruction
  | .instruction i => some i
  | .label _ => none

/-- **An exception handler** for the code from one label to another. -/
structure Handler where
  /-- Where the guarded code starts. -/
  start : Label
  /-- Where it ends. -/
  finish : Label
  /-- Where the handler stands. -/
  target : Label
  /-- The class it catches; none catches everything. -/
  catchType : Option String
  deriving DecidableEq, Repr

/-- The source line of the code from a label on. -/
structure LineEntry where
  /-- Where the code starts. -/
  start : Label
  /-- The line. -/
  line : UInt16
  deriving DecidableEq, Repr

/-- **A local variable of the source**, for the code from one label to
another. -/
structure LocalVariable where
  /-- Where it starts to be in scope. -/
  start : Label
  /-- Where its scope ends. -/
  finish : Label
  /-- Its name. -/
  name : String
  /-- The descriptor of its type. -/
  descriptor : String
  /-- Its generic signature, if it has one. -/
  signature : Option String
  /-- The slot that holds it. -/
  index : UInt16
  deriving DecidableEq, Repr

/-- **The body of a method.** -/
structure Body where
  /-- The stack slots it needs, if given. -/
  maxStack : Option UInt16
  /-- The local slots it needs, if given. -/
  maxLocals : Option UInt16
  /-- Its labels. -/
  labels : LabelTable
  /-- The stream of instructions and labels. -/
  elements : Array Element
  /-- The exception handlers. -/
  handlers : Array Handler
  /-- The line numbers. -/
  lines : Array LineEntry
  /-- The local variables. -/
  localVariables : Array LocalVariable
  /-- The stack map frames. -/
  frames : Array Frame
  /-- Further attributes. -/
  attributes : Array CustomAttribute

namespace Body

/-- A body with nothing in it. -/
def empty : Body :=
  ⟨none, none, .empty, #[], #[], #[], #[], #[], #[]⟩

instance : Inhabited Body := ⟨empty⟩

/-- Append an instruction. -/
def push (b : Body) (i : Instruction) : Body :=
  { b with elements := b.elements.push (.instruction i) }

/-- Put a label that has not been placed at the end of the stream. -/
def placeNew (b : Body) (label : Label) : Body :=
  { b with
    labels := b.labels.markPlaced label
    elements := b.elements.push (.label label) }

/-- **Put a label at the end of the stream**, if it has not been placed. -/
def place (b : Body) (label : Label) : Except Fault Body :=
  (b.labels.checkNew label).map fun () => b.placeNew label

/-- **A new label at the end of the stream.** -/
def here (b : Body) : Label × Body :=
  let (label, labels) := b.labels.fresh
  (label, { b with labels }.placeNew label)

/-- The label with the given name. -/
def mention (b : Body) (name : String) : Label × Body :=
  let (label, labels) := b.labels.mention name
  (label, { b with labels })

/-- A new label that is not in the stream yet. -/
def fresh (b : Body) : Label × Body :=
  let (label, labels) := b.labels.fresh
  (label, { b with labels })

/-- Append an exception handler. -/
def addHandler (b : Body) (handler : Handler) : Body :=
  { b with handlers := b.handlers.push handler }

/-- Append a line number. -/
def addLine (b : Body) (entry : LineEntry) : Body :=
  { b with lines := b.lines.push entry }

/-- Append a local variable. -/
def addVariable (b : Body) (entry : LocalVariable) : Body :=
  { b with localVariables := b.localVariables.push entry }

/-- Append an attribute. -/
def addAttribute (b : Body) (entry : CustomAttribute) : Body :=
  { b with attributes := b.attributes.push entry }

/-- A frame whose locals begin with the first `copied` locals of the last
frame of the body. -/
def continueFrame (b : Body) (frame : Frame) (copied : Nat) : Except Fault Frame :=
  if copied = 0 then .ok frame
  else frame.copyLocals ((b.frames.back?.map Frame.locals).getD #[]) copied

/-- Append a frame as it is. -/
def pushFrame (b : Body) (frame : Frame) : Body :=
  { b with frames := b.frames.push frame }

/-- **Append a frame** whose locals begin with the first `copied` locals of
the frame before it. -/
def addFrame (b : Body) (frame : Frame) (copied : Nat) : Except Fault Body :=
  (b.continueFrame frame copied).map fun frame => b.pushFrame frame

/-- The instructions of the stream, in order. -/
def instructions (b : Body) : List Instruction :=
  b.elements.toList.filterMap Element.instruction?

/-- Whether there is any instruction. -/
def hasInstructions (b : Body) : Bool :=
  b.elements.any fun element => element.instruction?.isSome

/-- **Check that every label stands in the stream.** -/
def checkLabels (b : Body) : Except Fault Unit :=
  match b.labels.unplaced with
  | [] => .ok ()
  | names => .error (.undefinedLabels names)

/-! ## Constants -/

/-- The constants of a local variable. A signature also calls for the table
of signatures. -/
def variableConstants (v : LocalVariable) : List Constant :=
  [.utf8 v.name, .utf8 v.descriptor]
    ++ v.signature.elim [] fun signature =>
      [.utf8 "LocalVariableTypeTable", .utf8 signature]

/-- **The constants that a body needs**, in the order in which it registers
them. -/
def constants (b : Body) (form : StackMapForm) : List Constant :=
  [.utf8 "Code"]
    ++ b.elements.toList.filterMap (fun element => element.instruction?.bind (·.constant?))
    ++ b.handlers.toList.filterMap (fun handler => handler.catchType.map .classRef)
    ++ (if b.lines.isEmpty then [] else [.utf8 "LineNumberTable"])
    ++ (if b.localVariables.isEmpty then [] else [.utf8 "LocalVariableTable"])
    ++ b.localVariables.toList.flatMap variableConstants
    ++ (if b.frames.isEmpty then []
      else .utf8 form.attributeName
        :: b.frames.toList.flatMap (fun frame => frame.classes.map .classRef))
    ++ b.attributes.toList.map fun entry => .utf8 entry.name

end Body

end BytecodeAssembler
