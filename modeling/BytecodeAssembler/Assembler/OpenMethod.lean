import BytecodeAssembler.Class.Method
import BytecodeAssembler.Instruction.Resolution

/-!
# Methods in the making

While a method is open, its body grows with every directive. The
instruction emitted last is held back as **pending**, so that a numeric
label can still go in front of it; anything else that marks a place commits
it first. A frame is collected between its begin and its end, together with
the number of locals it takes over from the frame before it.

A directive changes the method and can report faults. It changes what it
can also when it reports one, so the two are returned together.
-/

namespace BytecodeAssembler

/-- **A method whose body is still growing.** -/
structure OpenMethod where
  /-- The method without its body. -/
  method : Method
  /-- The body so far. -/
  body : Body
  /-- The instruction emitted last, with its source line. -/
  pending : Option (Instruction × Option Nat)
  /-- The frame begun, with the number of locals it takes over. -/
  frame : Option (Frame × Nat)
  /-- The start of the body. -/
  start : Label
  /-- The end of the body. -/
  finish : Label
  /-- The source line of the last instruction that had one. -/
  lastLine : Option Nat

namespace OpenMethod

/-- **Open a method.** Its body begins with a label at the start, and a label
for the end is ready. -/
def begin (method : Method) : OpenMethod :=
  let (start, body) := Body.empty.here
  let (finish, body) := body.fresh
  { method, body, pending := none, frame := none, start, finish, lastLine := none }

/-- Note the source line of an instruction that is about to be committed,
unless it is the line noted last. -/
def markLine (m : OpenMethod) (line : Option Nat) : OpenMethod × List Fault :=
  match line with
  | none => (m, [])
  | some line =>
    if m.lastLine = some line then (m, [])
    else
      let m := { m with lastLine := some line }
      if line ≤ 65535 then
        let (start, body) := m.body.here
        ({ m with body := body.addLine ⟨start, UInt16.ofNat line⟩ }, [])
      else (m, [.outOfRange "line number" line])

/-- **Commit the pending instruction**, if there is one. With automatic line
numbers its source line is noted in front of it. -/
def flush (m : OpenMethod) (autoLines : Bool) : OpenMethod × List Fault :=
  match m.pending with
  | none => (m, [])
  | some (i, line) =>
    let m := { m with pending := none }
    let (m, faults) := if autoLines then m.markLine line else (m, [])
    ({ m with body := m.body.push i }, faults)

/-- **Emit an instruction.** It becomes the pending one, and the one that
was pending is committed. -/
def emit (m : OpenMethod) (autoLines : Bool) (line : Option Nat) (mnemonic : String)
    (argument : Argument) : OpenMethod × List Fault :=
  if !m.method.mayHaveCode then (m, [.instructionNotAllowed m.method.name])
  else
    match Opcode.find? mnemonic with
    | none => (m, [.unknownInstruction mnemonic])
    | some opcode =>
      let (operand, labels) := argument.resolve opcode m.body.labels
      let m := { m with body := { m.body with labels } }
      match operand.bind (Instruction.make opcode) with
      | .error fault => (m, [fault])
      | .ok i =>
        let (m, faults) := m.flush autoLines
        ({ m with pending := some (i, line) }, faults)

/-- **Place a label.** A numeric label goes in front of the pending
instruction, any other label after it. -/
def plantLabel (m : OpenMethod) (autoLines : Bool) (name : String) :
    OpenMethod × List Fault :=
  let (label, body) := m.body.mention name
  let m := { m with body }
  let (m, faults) := if Label.isNumeric name then (m, []) else m.flush autoLines
  match m.body.labels.checkNew label with
  | .error fault => (m, faults ++ [fault])
  | .ok () => ({ m with body := m.body.placeNew label }, faults)

/-- Add an exception handler. -/
def addHandler (m : OpenMethod) (catchType : Option String) (start finish target : String) :
    OpenMethod :=
  let (start, body) := m.body.mention start
  let (finish, body) := body.mention finish
  let (target, body) := body.mention target
  { m with body := body.addHandler ⟨start, finish, target, catchType⟩ }

/-- Note a source line for the code that follows. This is for methods whose
lines are not noted automatically. -/
def addLine (m : OpenMethod) (line : Int64) : OpenMethod × List Fault :=
  let (m, faults) := m.flush false
  match narrowU2 "line number" line with
  | .error fault => (m, faults ++ [fault])
  | .ok line =>
    let (start, body) := m.body.here
    ({ m with body := body.addLine ⟨start, line⟩ }, faults)

/-- **Describe a local variable.** Without a range it is in scope in the
whole body. -/
def addVariable (m : OpenMethod) (index : Int64) (name descriptor : String)
    (signature : Option String) (range : Option (String × String)) :
    OpenMethod × List Fault :=
  match narrowU2 "local variable index" index with
  | .error fault => (m, [fault])
  | .ok index =>
    match range with
    | none =>
      let entry : LocalVariable := ⟨m.start, m.finish, name, descriptor, signature, index⟩
      ({ m with body := m.body.addVariable entry }, [])
    | some (start, finish) =>
      let (start, body) := m.body.mention start
      let (finish, body) := body.mention finish
      let entry : LocalVariable := ⟨start, finish, name, descriptor, signature, index⟩
      ({ m with body := body.addVariable entry }, [])

/-- Set the stack slots that the body needs. -/
def setMaxStack (m : OpenMethod) (value : Int64) : OpenMethod × List Fault :=
  match narrowU2 "max stack" value with
  | .error fault => (m, [fault])
  | .ok value => ({ m with body := { m.body with maxStack := some value } }, [])

/-- Set the local slots that the body needs. -/
def setMaxLocals (m : OpenMethod) (value : Int64) : OpenMethod × List Fault :=
  match narrowU2 "max locals" value with
  | .error fault => (m, [fault])
  | .ok value => ({ m with body := { m.body with maxLocals := some value } }, [])

/-! ## Frames -/

/-- **Begin a frame.** Until it says otherwise it describes the place of the
next instruction. -/
def beginFrame (m : OpenMethod) (autoLines : Bool) : OpenMethod × List Fault :=
  let (m, faults) := m.flush autoLines
  if m.frame.isSome then (m, faults ++ [.frameInsideFrame])
  else
    let (here, body) := m.body.here
    ({ m with body, frame := some (.empty (.label here), 0) }, faults)

/-- Change the frame begun, if there is one. The change can mention labels
and can be refused. -/
def inFrame (m : OpenMethod)
    (change : Frame → Nat → LabelTable → (Frame × Nat) × LabelTable × List Fault) :
    OpenMethod × List Fault :=
  match m.frame with
  | none => (m, [.outsideFrame])
  | some (frame, copied) =>
    let m := { m with frame := none }
    let (frame, labels, faults) := change frame copied m.body.labels
    ({ m with frame := some frame, body := { m.body with labels } }, faults)

/-- Say which place the frame describes: an offset or a label. -/
def frameOffset (m : OpenMethod) (position : String) : OpenMethod × List Fault :=
  m.inFrame fun frame copied labels =>
    match DeclaredType.readPlace labels position (.outOfRange "frame offset") with
    | (.error fault, labels) => ((frame, copied), labels, [fault])
    | (.ok offset, labels) => (({ frame with offset }, copied), labels, [])

/-- Append a local to the frame. -/
def frameLocal (m : OpenMethod) (name : String) (argument : Option String) :
    OpenMethod × List Fault :=
  m.inFrame fun frame copied labels =>
    match DeclaredType.ofName labels name argument with
    | (.error fault, labels) => ((frame, copied), labels, [fault])
    | (.ok type, labels) => ((frame.pushLocal type, copied), labels, [])

/-- Append a stack item to the frame. -/
def frameStack (m : OpenMethod) (name : String) (argument : Option String) :
    OpenMethod × List Fault :=
  m.inFrame fun frame copied labels =>
    match DeclaredType.ofName labels name argument with
    | (.error fault, labels) => ((frame, copied), labels, [fault])
    | (.ok type, labels) => ((frame.pushStack type, copied), labels, [])

/-- **Take over locals of the frame before**, which has to be said before
any local of its own. -/
def frameUseLocals (m : OpenMethod) (count : Int64) : OpenMethod × List Fault :=
  m.inFrame fun frame copied labels =>
    if frame.locals.isEmpty then
      match narrowU2 "copied locals" count with
      | .error fault => ((frame, copied), labels, [fault])
      | .ok count => ((frame, count.toNat), labels, [])
    else ((frame, copied), labels, [.copyAfterLocals])

/-- **End the frame** and add it to the body. -/
def endFrame (m : OpenMethod) : OpenMethod × List Fault :=
  match m.frame with
  | none => (m, [.endFrameAlone])
  | some (frame, copied) =>
    let m := { m with frame := none }
    match m.body.continueFrame frame copied with
    | .error fault => (m, [fault])
    | .ok frame => ({ m with body := m.body.pushFrame frame }, [])

/-! ## The end -/

/-- **Close a method**: commit what is pending, place the label of the end,
and check that every label mentioned was placed. A method that may not have
code gives its body up. -/
def close (m : OpenMethod) (autoLines : Bool) : Method × List Fault :=
  let (m, flushed) := m.flush autoLines
  let unfinished := if m.frame.isSome then [.frameOpenAtMethodEnd] else []
  let (body, labels) :=
    match m.body.place m.finish with
    | .error fault => (m.body, [fault])
    | .ok body =>
      match body.checkLabels with
      | .error fault => (body, [fault])
      | .ok () => (body, [])
  let method :=
    if m.method.mayHaveCode then { m.method with body := some body } else m.method
  (method, flushed ++ unfinished ++ labels)

end OpenMethod

end BytecodeAssembler
