import BytecodeAssembler.Assembler.Basic

/-!
# What each directive does

Every directive is a function of the state, and none of them fails: what
cannot be carried out is recorded. The directives are grouped by what they
declare.
-/

namespace BytecodeAssembler.Assembler

/-- Say which source line the following directives come from. -/
def setLine (a : Assembler) (line : Nat) : Assembler := { a with line := some line }

/-! ## The class -/

/-- **Set the version.** Once a method has been seen, the version may no
longer change the form of stack maps. -/
def setVersion (a : Assembler) (version : Version) : Assembler :=
  let accept := { a with classSoFar := { a.classSoFar with version } }
  match a.form with
  | none => accept
  | some form =>
    if form = version.stackMapForm then accept
    else a.report (.stackMapFormFixed version form)

/-- Set the name of the source file. -/
def setSource (a : Assembler) (file : String) : Assembler :=
  { a with classSoFar := { a.classSoFar with sourceFile := some file } }

/-- **Declare the class**, once. -/
def setClass (a : Assembler) (flags : AccessFlags .classes) (name : String) : Assembler :=
  if a.classSoFar.thisClass.isSome then a.report .classTwice
  else { a with classSoFar := { a.classSoFar with flags, thisClass := some name } }

/-- **Declare the class above it**, once. -/
def setSuper (a : Assembler) (name : String) : Assembler :=
  if a.classSoFar.superClass.isSome then a.report .superTwice
  else { a with classSoFar := { a.classSoFar with superClass := some name } }

/-- Add an interface. -/
def addInterface (a : Assembler) (name : String) : Assembler :=
  let c := a.classSoFar
  { a with classSoFar := { c with interfaces := c.interfaces.push name } }

/-- Say which class and method a local class stands in. -/
def setEnclosing (a : Assembler) (enclosing : Enclosing) : Assembler :=
  { a with classSoFar := { a.classSoFar with enclosing := some enclosing } }

/-- Add an inner class. -/
def addInnerClass (a : Assembler) (inner : InnerClass) : Assembler :=
  let c := a.classSoFar
  { a with classSoFar := { c with innerClasses := c.innerClasses.push inner } }

/-- Set the text for debuggers. -/
def setDebugExtension (a : Assembler) (text : String) : Assembler :=
  { a with classSoFar := { a.classSoFar with debugExtension := some text } }

/-! ## The innermost declaration -/

/-- Set the generic signature of the innermost declaration. -/
def setSignature (a : Assembler) (signature : String) : Assembler :=
  a.modifyAttributes ({ · with signature := some signature })

/-- Mark the innermost declaration as deprecated. -/
def setDeprecated (a : Assembler) : Assembler :=
  a.modifyAttributes ({ · with deprecated := true })

/-- Add an attribute to the innermost declaration. -/
def addAttribute (a : Assembler) (entry : CustomAttribute) : Assembler :=
  a.modifyAttributes fun common => { common with custom := common.custom.push entry }

/-! ## Fields -/

/-- **Close the open field**, if there is one. -/
def endField (a : Assembler) : Assembler :=
  match a.field with
  | none => a
  | some f =>
    let c := a.classSoFar
    { a with field := none, classSoFar := { c with fields := c.fields.push f } }

/-- A field with the value that a literal gives it. -/
def fieldWithValue (f : Field) (value : Literal) : Except Fault Field := do
  let c ← value.toConstant f.descriptor
  f.setConstant c

/-- **Open a field.** A field that was open is closed. The field stands even
if its descriptor or value is at fault. -/
def beginField (a : Assembler) (flags : AccessFlags .fields) (name descriptor : String)
    (value : Option Literal) : Assembler :=
  if a.method.isSome then a.report .fieldInsideMethod
  else
    let a := a.endField
    let f := Field.declare flags name descriptor
    match FieldType.read descriptor, value with
    | .error fault, _ => { a with field := some f }.report fault
    | .ok _, none => { a with field := some f }
    | .ok _, some value =>
      match fieldWithValue f value with
      | .error fault => { a with field := some f }.report fault
      | .ok f => { a with field := some f }

/-! ## Methods -/

/-- **Open a method.** A field that was open is closed. The first method
fixes the form of stack maps. -/
def beginMethod (a : Assembler) (flags : AccessFlags .methods) (name descriptor : String) :
    Assembler :=
  if a.method.isSome then a.report .methodInsideMethod
  else
    let a := a.endField
    let a :=
      match MethodDescriptor.read descriptor with
      | .error fault => a.report fault
      | .ok _ => a
    let form := a.form.getD a.classSoFar.version.stackMapForm
    { a with
      form := some form
      method := some (OpenMethod.begin (Method.declare flags name descriptor)) }

/-- **Close the open method.** -/
def endMethod (a : Assembler) : Assembler :=
  match a.method with
  | none => a.report .endMethodAlone
  | some m =>
    let a := { a with method := none }
    let (method, faults) := m.close a.settings.autoLines
    let a := a.reportAll faults
    let c := a.classSoFar
    { a with classSoFar := { c with methods := c.methods.push method } }

/-- Set the stack slots of the open method. -/
def setLimitStack (a : Assembler) (value : Int64) : Assembler :=
  a.inMethod ".limit stack" (·.setMaxStack value)

/-- Set the local slots of the open method. -/
def setLimitLocals (a : Assembler) (value : Int64) : Assembler :=
  a.inMethod ".limit locals" (·.setMaxLocals value)

/-- Add a class that the open method throws. -/
def addThrows (a : Assembler) (name : String) : Assembler :=
  a.inMethod ".throws" fun m =>
    let method := { m.method with exceptions := m.method.exceptions.push name }
    ({ m with method }, [])

/-- **Emit an instruction** into the open method. -/
def emit (a : Assembler) (mnemonic : String) (argument : Argument) : Assembler :=
  let autoLines := a.settings.autoLines
  let line := a.line
  a.inMethod mnemonic (·.emit autoLines line mnemonic argument)

/-- **Place a label** in the open method. -/
def plantLabel (a : Assembler) (name : String) : Assembler :=
  let autoLines := a.settings.autoLines
  a.inMethod "label" (·.plantLabel autoLines name)

/-- Add an exception handler to the open method. -/
def addCatch (a : Assembler) (catchType : Option String) (start finish target : String) :
    Assembler :=
  a.inMethod ".catch" fun m => (m.addHandler catchType start finish target, [])

/-- Note a source line in the open method; nothing happens when lines are
noted automatically. -/
def addLine (a : Assembler) (line : Int64) : Assembler :=
  if a.settings.autoLines then a else a.inMethod ".line" (·.addLine line)

/-- Describe a local variable of the open method. -/
def addVar (a : Assembler) (index : Int64) (name descriptor : String)
    (signature : Option String) (range : Option (String × String)) : Assembler :=
  a.inMethod ".var" (·.addVariable index name descriptor signature range)

/-! ## Frames -/

/-- Begin a frame. -/
def beginFrame (a : Assembler) : Assembler :=
  let autoLines := a.settings.autoLines
  a.inMethod ".stack" (·.beginFrame autoLines)

/-- Say which place the open frame describes. -/
def frameOffset (a : Assembler) (position : String) : Assembler :=
  a.inMethod "frame directive" (·.frameOffset position)

/-- Append a local to the open frame. -/
def frameLocal (a : Assembler) (type : String) (argument : Option String) : Assembler :=
  a.inMethod "frame directive" (·.frameLocal type argument)

/-- Append a stack item to the open frame. -/
def frameStack (a : Assembler) (type : String) (argument : Option String) : Assembler :=
  a.inMethod "frame directive" (·.frameStack type argument)

/-- Take over locals of the frame before. -/
def frameUseLocals (a : Assembler) (count : Int64) : Assembler :=
  a.inMethod "frame directive" (·.frameUseLocals count)

/-- End the open frame. -/
def endFrame (a : Assembler) : Assembler :=
  a.inMethod ".end stack" (·.endFrame)

/-! ## Annotations -/

/-- **Begin an annotation** of a declaration or parameter. -/
def beginTree (a : Assembler) (target : AnnotationTarget) (type : String) : Assembler :=
  if !a.trees.isEmpty then a.report .annotationInsideOther
  else if target.isParameter && a.method.isNone then a.report .parameterOutsideMethod
  else { a with trees := [⟨type, #[], .target target⟩] }

/-- Add an element to the innermost open annotation. -/
def addElement (a : Assembler) (name : String) (value : ElementValue) : Assembler :=
  match a.trees with
  | [] => a.report .elementOutside
  | tree :: around =>
    let a := { a with trees := [] }
    { a with trees := { tree with elements := tree.elements.push (name, value) } :: around }

/-- **Begin an annotation inside another one**, as the element of this
name. -/
def beginNested (a : Assembler) (name type : String) : Assembler :=
  if a.trees.isEmpty then a.report .nestedOutside
  else { a with trees := ⟨type, #[], .element name⟩ :: a.trees }

/-- Append an annotation to the list of one parameter. There is a list for
every parameter of the method, and for as many as the index asks for. -/
def pushParameter (parameters : Array (Array AnnotationTree)) (count index : Nat)
    (tree : AnnotationTree) : Array (Array AnnotationTree) :=
  let size := max (max parameters.size count) (index + 1)
  let padded := parameters ++ Array.replicate (size - parameters.size) #[]
  padded.modify index (·.push tree)

/-- The number of parameters that a descriptor gives; none if it is at
fault. -/
def parameterCount (descriptor : String) : Nat :=
  match MethodDescriptor.read descriptor with
  | .ok d => d.parameters.length
  | .error _ => 0

/-- Change the open method, if there is one. -/
def modifyMethod (a : Assembler) (change : Method → Method) : Assembler :=
  match a.method with
  | none => a
  | some m =>
    let a := { a with method := none }
    { a with method := some { m with method := change m.method } }

/-- **Attach an annotation** to its target. -/
def attach (a : Assembler) (target : AnnotationTarget) (tree : AnnotationTree) : Assembler :=
  match target with
  | .visible =>
    a.modifyAttributes fun common => { common with visible := common.visible.push tree }
  | .invisible =>
    a.modifyAttributes fun common =>
      { common with invisible := common.invisible.push tree }
  | .visibleParameter index =>
    a.modifyMethod fun m =>
      { m with visibleParameters :=
          pushParameter m.visibleParameters (parameterCount m.descriptor) index tree }
  | .invisibleParameter index =>
    a.modifyMethod fun m =>
      { m with invisibleParameters :=
          pushParameter m.invisibleParameters (parameterCount m.descriptor) index tree }

/-- **End the innermost annotation**: it becomes an element of the one
around it, or is attached to its target. -/
def endTree (a : Assembler) : Assembler :=
  match a.trees with
  | [] => a.report .endAnnotationAlone
  | tree :: around =>
    let a := { a with trees := around }
    match tree.parent with
    | .target target => a.attach target tree.close
    | .element name => if around.isEmpty then a else a.addElement name (.nested tree.close)

/-- Set the default value of the open method. -/
def setDefault (a : Assembler) (value : ElementValue) : Assembler :=
  a.inMethod ".annotation default" fun m =>
    ({ m with method := { m.method with defaultValue := some value } }, [])

end BytecodeAssembler.Assembler
