import BytecodeAssembler.StackMap.VerificationType

/-!
# Declared frames

A frame is declared for one place in the code: the types of the local
variables, first one first, and of the stack, bottom first. The locals of a
frame can begin with those of the frame declared before it.
-/

namespace BytecodeAssembler

/-- **A frame as it is declared.** -/
structure Frame where
  /-- The place it describes. -/
  offset : CodeOffset
  /-- The local variables. -/
  locals : Array DeclaredType
  /-- The stack. -/
  stack : Array DeclaredType
  deriving DecidableEq, Repr

namespace Frame

/-- A frame without locals and with an empty stack. -/
def empty (offset : CodeOffset) : Frame := ⟨offset, #[], #[]⟩

/-- Append a local. -/
def pushLocal (f : Frame) (type : DeclaredType) : Frame :=
  { f with locals := f.locals.push type }

/-- Append a stack item. -/
def pushStack (f : Frame) (type : DeclaredType) : Frame :=
  { f with stack := f.stack.push type }

/-- **Set the local at an index.** The locals skipped before it hold nothing
that can be used. -/
def setLocal (f : Frame) (index : Nat) (type : DeclaredType) : Frame :=
  let padded := f.locals ++ Array.replicate (index + 1 - f.locals.size) .top
  { f with locals := padded.setIfInBounds index type }

/-- **Put the first locals of another frame in front.** -/
def copyLocals (f : Frame) (previous : Array DeclaredType) (count : Nat) :
    Except Fault Frame :=
  if count ≤ previous.size then
    .ok { f with locals := previous.extract 0 count ++ f.locals }
  else .error (.copiedLocals count previous.size)

/-- The classes that the frame mentions, locals first. -/
def classes (f : Frame) : List String :=
  (f.locals.toList ++ f.stack.toList).filterMap VerificationType.class?

end Frame

/-- **The locals when a method is entered**: the receiver, unless the method
is static, and the parameters. The receiver of a constructor is not yet
constructed, except in the one class that has no constructor above it. -/
def initialLocals (thisClass method : String) (descriptor : MethodDescriptor)
    (isStatic : Bool) : List DeclaredType :=
  let receiver :=
    if isStatic then []
    else if method = "<init>" ∧ thisClass ≠ "java/lang/Object" then [.uninitializedThis]
    else [.object thisClass]
  receiver ++ descriptor.parameters.map DeclaredType.ofFieldType

end BytecodeAssembler
