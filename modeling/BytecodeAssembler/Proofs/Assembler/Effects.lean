import BytecodeAssembler.Assembler.Finish
import BytecodeAssembler.Directive
import BytecodeAssembler.Proofs.Outcome

/-!
# What a directive does to a run

There are many directives and few things that they do. Each of them concerns
one part of the state: the line, the head of the class, the attributes of the
innermost declaration, a field or a method that begins or ends, the open
method, or the open annotations. The **effect** of a directive says which part
it is and what happens to it, and an effect is carried out without recording
anything: it gives the state after it and the faults that were found.

`Assembler.run_eq` ties the two together: a directive has its effect and
records what its effect found, each fault once and at the line of the
directive (`Assembler.diagnostics_run`). Whatever else is said about all
directives follows from their effects, of which there are a dozen. What an
effect leaves alone shows in its type. An edit of the head of a class, say,
has no way to touch the members.
-/

namespace BytecodeAssembler

/-! ## Effects -/

/-- **What a class says of itself**, but for its version and its attributes. -/
structure ClassHead where
  flags : AccessFlags .classes
  thisClass : Option String
  superClass : Option String
  interfaces : Array String
  sourceFile : Option String
  enclosing : Option Enclosing
  innerClasses : Array InnerClass
  debugExtension : Option String

/-- The head of a class. -/
def Class.head (c : Class) : ClassHead :=
  ⟨c.flags, c.thisClass, c.superClass, c.interfaces, c.sourceFile, c.enclosing, c.innerClasses,
    c.debugExtension⟩

/-- The class under another head. -/
def Class.withHead (c : Class) (head : ClassHead) : Class :=
  { c with
    flags := head.flags
    thisClass := head.thisClass
    superClass := head.superClass
    interfaces := head.interfaces
    sourceFile := head.sourceFile
    enclosing := head.enclosing
    innerClasses := head.innerClasses
    debugExtension := head.debugExtension }

/-- The form of stack maps that is fixed, if the version has another one. -/
def Version.refusedBy? (version : Version) : Option StackMapForm → Option StackMapForm
  | none => none
  | some form => if form = version.stackMapForm then none else some form

/-- **What an edit of the open annotations gives**: those that are open after
it, and the one that is to be attached, if one ended. -/
structure TreeEdit where
  trees : List OpenTree
  ended : Option (AnnotationTarget × AnnotationTree)

/-- **The effect of a directive**, by the part of a run that it concerns. -/
inductive Effect where
  /-- What follows comes from another line. -/
  | line (number : Nat)
  /-- Faults are found and nothing changes. -/
  | find (faults : List Fault)
  /-- The class gets a version, unless its stack maps have another form. -/
  | version (version : Version)
  /-- The head of the class is edited, which can be refused. -/
  | head (edit : ClassHead → Except Fault ClassHead)
  /-- The attributes of the innermost declaration change. -/
  | attributes (change : CommonAttributes → CommonAttributes)
  /-- A field begins, and faults were found in what it says. -/
  | beginField (field : Field) (faults : List Fault)
  | endField
  /-- A method begins, and faults were found in what it says. -/
  | beginMethod (method : Method) (faults : List Fault)
  | endMethod
  /-- The body of the open method changes. -/
  | body (directive : String) (change : OpenMethod → OpenMethod × List Fault)
  /-- The open method changes outside of its body. -/
  | declaration (directive : String) (change : Method → Method)
  /-- The open annotations are edited, which can be refused. The edit sees
  whether a method is open. -/
  | trees (edit : Bool → List OpenTree → Except Fault TreeEdit)

/-- The line after an effect. -/
def Effect.lineAfter (line : Option Nat) : Effect → Option Nat
  | .line number => some number
  | _ => line

/-- **The state after an effect, and the faults it found.** -/
def Assembler.perform (a : Assembler) : Effect → Assembler × List Fault
  | .line number => ({ a with line := some number }, [])
  | .find faults => (a, faults)
  | .version version =>
    match version.refusedBy? a.form with
    | none => ({ a with classSoFar := { a.classSoFar with version } }, [])
    | some form => (a, [.stackMapFormFixed version form])
  | .head edit =>
    match edit a.classSoFar.head with
    | .error fault => (a, [fault])
    | .ok head => ({ a with classSoFar := a.classSoFar.withHead head }, [])
  | .attributes change => (a.modifyAttributes change, [])
  | .beginField field faults =>
    if a.method.isSome then (a, [.fieldInsideMethod])
    else ({ a.endField with field := some field }, faults)
  | .endField => (a.endField, [])
  | .beginMethod method faults =>
    if a.method.isSome then (a, [.methodInsideMethod])
    else
      ({ a.endField with
          form := some (a.form.getD a.classSoFar.version.stackMapForm)
          method := some (.begin method) }, faults)
  | .endMethod =>
    match a.method with
    | none => (a, [.endMethodAlone])
    | some m =>
      ({ a with
          method := none
          classSoFar := { a.classSoFar with
            methods := a.classSoFar.methods.push (m.close a.settings.autoLines).1 } },
        (m.close a.settings.autoLines).2)
  | .body directive change =>
    match a.method with
    | none => (a, [.outsideMethod directive])
    | some m => ({ a with method := some (change m).1 }, (change m).2)
  | .declaration directive change =>
    match a.method with
    | none => (a, [.outsideMethod directive])
    | some m => ({ a with method := some { m with method := change m.method } }, [])
  | .trees edit =>
    match edit a.method.isSome a.trees with
    | .error fault => (a, [fault])
    | .ok ⟨trees, none⟩ => ({ a with trees }, [])
    | .ok ⟨trees, some (target, tree)⟩ => (({ a with trees } : Assembler).attach target tree, [])

/-! ## The effects of directives -/

/-- **The field that a directive opens**, with the value it is given if that can
be had. -/
def Field.opened (flags : AccessFlags .fields) (name descriptor : String)
    (value : Option Literal) : Field × List Fault :=
  let f := Field.declare flags name descriptor
  match FieldType.read descriptor, value with
  | .error fault, _ => (f, [fault])
  | .ok _, none => (f, [])
  | .ok _, some value =>
    match Assembler.fieldWithValue f value with
    | .error fault => (f, [fault])
    | .ok f => (f, [])

/-- The faults of a method's descriptor. -/
def MethodDescriptor.faults (descriptor : String) : List Fault :=
  match read descriptor with
  | .error fault => [fault]
  | .ok _ => []

namespace OpenTree

/-- The annotation with one more element. -/
def push (t : OpenTree) (name : String) (value : ElementValue) : OpenTree :=
  { t with elements := t.elements.push (name, value) }

/-- Begin an annotation of a declaration or parameter. -/
def begin (target : AnnotationTarget) (type : String) (inMethod : Bool) (trees : List OpenTree) :
    Except Fault TreeEdit :=
  if !trees.isEmpty then .error .annotationInsideOther
  else if target.isParameter && !inMethod then .error .parameterOutsideMethod
  else .ok ⟨[⟨type, #[], .target target⟩], none⟩

/-- Add an element to the innermost annotation. -/
def addElement (name : String) (value : ElementValue) : List OpenTree → Except Fault TreeEdit
  | [] => .error .elementOutside
  | tree :: around => .ok ⟨tree.push name value :: around, none⟩

/-- Begin an annotation inside another one. -/
def beginNested (name type : String) : List OpenTree → Except Fault TreeEdit
  | [] => .error .nestedOutside
  | tree :: around => .ok ⟨⟨type, #[], .element name⟩ :: tree :: around, none⟩

/-- End the innermost annotation. What is inside of another one is put there. -/
def finish : List OpenTree → Except Fault TreeEdit
  | [] => .error .endAnnotationAlone
  | tree :: around =>
    match tree.parent, around with
    | .target target, _ => .ok ⟨around, some (target, tree.close)⟩
    | .element _, [] => .ok ⟨[], none⟩
    | .element name, next :: around =>
      .ok ⟨next.push name (.nested tree.close) :: around, none⟩

end OpenTree

namespace Assembler

variable {a a' : Assembler} {d : Directive} {fault : Fault} {faults : List Fault}

/-- **The effect of a directive.** Of the run it depends on the settings and the
line only. -/
def effect (a : Assembler) : Directive → Effect
  | .line number => .line number
  | .report fault => .find [fault]
  | .version version => .version version
  | .source file => .head fun head => .ok { head with sourceFile := some file }
  | .classHeader flags name => .head fun head =>
    if head.thisClass.isSome then .error .classTwice
    else .ok { head with flags, thisClass := some name }
  | .superClass name => .head fun head =>
    if head.superClass.isSome then .error .superTwice
    else .ok { head with superClass := some name }
  | .implement name => .head fun head =>
    .ok { head with interfaces := head.interfaces.push name }
  | .enclosing enclosing => .head fun head => .ok { head with enclosing := some enclosing }
  | .innerClass inner => .head fun head =>
    .ok { head with innerClasses := head.innerClasses.push inner }
  | .debugExtension text => .head fun head => .ok { head with debugExtension := some text }
  | .signature text => .attributes ({ · with signature := some text })
  | .deprecated => .attributes ({ · with deprecated := true })
  | .custom entry => .attributes fun common =>
    { common with custom := common.custom.push entry }
  | .beginField flags name descriptor value =>
    let (field, faults) := Field.opened flags name descriptor value
    .beginField field faults
  | .endField => .endField
  | .beginMethod flags name descriptor =>
    .beginMethod (.declare flags name descriptor) (MethodDescriptor.faults descriptor)
  | .endMethod => .endMethod
  | .limitStack value => .body ".limit stack" (·.setMaxStack value)
  | .limitLocals value => .body ".limit locals" (·.setMaxLocals value)
  | .throws name => .declaration ".throws" fun m =>
    { m with exceptions := m.exceptions.push name }
  | .emit mnemonic argument => .body mnemonic (·.emit a.settings.autoLines a.line mnemonic argument)
  | .label name => .body "label" (·.plantLabel a.settings.autoLines name)
  | .handler catchType start finish target =>
    .body ".catch" fun m => (m.addHandler catchType start finish target, [])
  | .lineNumber value => if a.settings.autoLines then .find [] else .body ".line" (·.addLine value)
  | .localVariable index name descriptor signature range =>
    .body ".var" (·.addVariable index name descriptor signature range)
  | .beginFrame => .body ".stack" (·.beginFrame a.settings.autoLines)
  | .frameOffset position => .body "frame directive" (·.frameOffset position)
  | .frameLocal type argument => .body "frame directive" (·.frameLocal type argument)
  | .frameStack type argument => .body "frame directive" (·.frameStack type argument)
  | .frameUseLocals count => .body "frame directive" (·.frameUseLocals count)
  | .endFrame => .body ".end stack" (·.endFrame)
  | .beginTree target type => .trees (OpenTree.begin target type)
  | .element name value => .trees fun _ => OpenTree.addElement name value
  | .beginNested name type => .trees fun _ => OpenTree.beginNested name type
  | .endTree => .trees fun _ => OpenTree.finish
  | .defaultValue value => .declaration ".annotation default" fun m =>
    { m with defaultValue := some value }

/-- **The state after a directive and the faults it found**, before they are
recorded. -/
def outcome (a : Assembler) (d : Directive) : Assembler × List Fault := a.perform (a.effect d)

/-! ## Directives by their effects -/

/-- **The directives that edit the head of the class.** -/
inductive HeadEdit : Directive → (ClassHead → Except Fault ClassHead) → Prop where
  | source (file : String) :
      HeadEdit (.source file) fun head => .ok { head with sourceFile := some file }
  | classHeader (flags : AccessFlags .classes) (name : String) :
      HeadEdit (.classHeader flags name) fun head =>
        if head.thisClass.isSome then .error .classTwice
        else .ok { head with flags, thisClass := some name }
  | superClass (name : String) :
      HeadEdit (.superClass name) fun head =>
        if head.superClass.isSome then .error .superTwice
        else .ok { head with superClass := some name }
  | implement (name : String) :
      HeadEdit (.implement name) fun head =>
        .ok { head with interfaces := head.interfaces.push name }
  | enclosing (enclosing : Enclosing) :
      HeadEdit (.enclosing enclosing) fun head => .ok { head with enclosing := some enclosing }
  | innerClass (inner : InnerClass) :
      HeadEdit (.innerClass inner) fun head =>
        .ok { head with innerClasses := head.innerClasses.push inner }
  | debugExtension (text : String) :
      HeadEdit (.debugExtension text) fun head => .ok { head with debugExtension := some text }

/-- **The directives that make a remark** on the innermost declaration. -/
inductive AttributeChange : Directive → (CommonAttributes → CommonAttributes) → Prop where
  | signature (text : String) :
      AttributeChange (.signature text) ({ · with signature := some text })
  | deprecated : AttributeChange .deprecated ({ · with deprecated := true })
  | custom (entry : CustomAttribute) :
      AttributeChange (.custom entry) fun common =>
        { common with custom := common.custom.push entry }

/-- **The directives that change the body of a method.** A line number is noted
only if lines are not noted automatically. -/
inductive BodyChange (autoLines : Bool) (line : Option Nat) :
    Directive → (OpenMethod → OpenMethod × List Fault) → Prop where
  | limitStack (value : Int64) : BodyChange autoLines line (.limitStack value) (·.setMaxStack value)
  | limitLocals (value : Int64) :
      BodyChange autoLines line (.limitLocals value) (·.setMaxLocals value)
  | emit (mnemonic : String) (argument : Argument) :
      BodyChange autoLines line (.emit mnemonic argument)
        (·.emit autoLines line mnemonic argument)
  | label (name : String) : BodyChange autoLines line (.label name) (·.plantLabel autoLines name)
  | handler (catchType : Option String) (start finish target : String) :
      BodyChange autoLines line (.handler catchType start finish target)
        fun m => (m.addHandler catchType start finish target, [])
  | lineNumber (value : Int64) (hauto : autoLines = false) :
      BodyChange autoLines line (.lineNumber value) (·.addLine value)
  | localVariable (index : Int64) (name descriptor : String) (signature : Option String)
      (range : Option (String × String)) :
      BodyChange autoLines line (.localVariable index name descriptor signature range)
        (·.addVariable index name descriptor signature range)
  | beginFrame : BodyChange autoLines line .beginFrame (·.beginFrame autoLines)
  | frameOffset (position : String) :
      BodyChange autoLines line (.frameOffset position) (·.frameOffset position)
  | frameLocal (type : String) (argument : Option String) :
      BodyChange autoLines line (.frameLocal type argument) (·.frameLocal type argument)
  | frameStack (type : String) (argument : Option String) :
      BodyChange autoLines line (.frameStack type argument) (·.frameStack type argument)
  | frameUseLocals (count : Int64) :
      BodyChange autoLines line (.frameUseLocals count) (·.frameUseLocals count)
  | endFrame : BodyChange autoLines line .endFrame (·.endFrame)

/-- **The directives that change a method outside of its body.** -/
inductive DeclarationChange : Directive → (Method → Method) → Prop where
  | throws (name : String) :
      DeclarationChange (.throws name) fun m => { m with exceptions := m.exceptions.push name }
  | defaultValue (value : ElementValue) :
      DeclarationChange (.defaultValue value) ({ · with defaultValue := some value })

/-- **The directives that edit the open annotations.** -/
inductive TreeChange : Directive → (Bool → List OpenTree → Except Fault TreeEdit) → Prop where
  | beginTree (target : AnnotationTarget) (type : String) :
      TreeChange (.beginTree target type) (OpenTree.begin target type)
  | element (name : String) (value : ElementValue) :
      TreeChange (.element name value) fun _ => OpenTree.addElement name value
  | beginNested (name type : String) :
      TreeChange (.beginNested name type) fun _ => OpenTree.beginNested name type
  | endTree : TreeChange .endTree fun _ => OpenTree.finish

/-- **The effects that directives have**, kind by kind. -/
inductive Acts (a : Assembler) : Directive → Effect → Prop where
  | line (number : Nat) : Acts a (.line number) (.line number)
  | report (fault : Fault) : Acts a (.report fault) (.find [fault])
  | ignored (value : Int64) (hauto : a.settings.autoLines = true) :
      Acts a (.lineNumber value) (.find [])
  | version (version : Version) : Acts a (.version version) (.version version)
  | head {d : Directive} {edit : ClassHead → Except Fault ClassHead} (hd : HeadEdit d edit) :
      Acts a d (.head edit)
  | attributes {d : Directive} {change : CommonAttributes → CommonAttributes}
      (hd : AttributeChange d change) : Acts a d (.attributes change)
  | beginField (flags : AccessFlags .fields) (name descriptor : String)
      (value : Option Literal) :
      Acts a (.beginField flags name descriptor value)
        (.beginField (Field.opened flags name descriptor value).1
          (Field.opened flags name descriptor value).2)
  | endField : Acts a .endField .endField
  | beginMethod (flags : AccessFlags .methods) (name descriptor : String) :
      Acts a (.beginMethod flags name descriptor)
        (.beginMethod (.declare flags name descriptor) (MethodDescriptor.faults descriptor))
  | endMethod : Acts a .endMethod .endMethod
  | body {d : Directive} {change : OpenMethod → OpenMethod × List Fault} (directive : String)
      (hd : BodyChange a.settings.autoLines a.line d change) : Acts a d (.body directive change)
  | declaration {d : Directive} {change : Method → Method} (directive : String)
      (hd : DeclarationChange d change) : Acts a d (.declaration directive change)
  | trees {d : Directive} {edit : Bool → List OpenTree → Except Fault TreeEdit}
      (hd : TreeChange d edit) : Acts a d (.trees edit)

theorem acts (a : Assembler) (d : Directive) : a.Acts d (a.effect d) := by
  cases d with
  | line number => exact .line number
  | report fault => exact .report fault
  | version version => exact .version version
  | source | classHeader | superClass | implement | enclosing | innerClass | debugExtension =>
    exact .head (by constructor)
  | signature | deprecated | custom => exact .attributes (by constructor)
  | beginField flags name descriptor value => exact .beginField flags name descriptor value
  | endField => exact .endField
  | beginMethod flags name descriptor => exact .beginMethod flags name descriptor
  | endMethod => exact .endMethod
  | limitStack | limitLocals | emit | label | handler | localVariable | beginFrame | frameOffset
  | frameLocal | frameStack | frameUseLocals | endFrame => exact .body _ (by constructor)
  | throws | defaultValue => exact .declaration _ (by constructor)
  | beginTree | element | beginNested | endTree => exact .trees (by constructor)
  | lineNumber value =>
    simp only [effect]
    split
    next hauto => exact .ignored value hauto
    next hauto => exact .body _ (.lineNumber value (Bool.eq_false_iff.2 hauto))

/-! ## Recording -/

/-- **Recording several faults** is all that it does. -/
theorem reportAll_eq (a : Assembler) (faults : List Fault) :
    a.reportAll faults
      = { a with diagnostics := a.diagnostics ++ (faults.map (Diagnostic.mk a.line)).toArray } := by
  induction faults generalizing a with
  | nil => simp [reportAll]
  | cons fault faults ih =>
    refine (ih (a.report fault)).trans ?_
    simp [report]

/-- **What is recorded stands behind what was recorded before**, in order. -/
theorem toList_diagnostics_reportAll (a : Assembler) (faults : List Fault) :
    (a.reportAll faults).diagnostics.toList
      = a.diagnostics.toList ++ faults.map (Diagnostic.mk a.line) := by
  simp [reportAll_eq]

/-! ## A directive has its effect -/

/-- **Closing a field** moves it to the fields of the class, if one is open. -/
theorem endField_eq (a : Assembler) : a.endField = { a with
    field := none
    classSoFar := { a.classSoFar with fields := a.classSoFar.fields ++ a.field.toArray } } := by
  obtain ⟨settings, c, line, diagnostics, form, field, method, trees⟩ := a
  cases field <;> simp [endField]

theorem setVersion_eq (a : Assembler) (version : Version) :
    a.setVersion version = (a.outcome (.version version)).1.reportAll
      (a.outcome (.version version)).2 := by
  unfold setVersion outcome effect perform Version.refusedBy?
  cases a.form with
  | none => rfl
  | some form =>
    dsimp only
    split <;> rfl

theorem beginField_eq (a : Assembler) (flags : AccessFlags .fields) (name descriptor : String)
    (value : Option Literal) :
    a.beginField flags name descriptor value
      = (a.outcome (.beginField flags name descriptor value)).1.reportAll
        (a.outcome (.beginField flags name descriptor value)).2 := by
  unfold beginField outcome effect perform Field.opened
  dsimp only
  split
  next => rfl
  next =>
    cases FieldType.read descriptor with
    | error fault => rfl
    | ok type =>
      cases value with
      | none => rfl
      | some value =>
        dsimp only
        cases fieldWithValue (Field.declare flags name descriptor) value <;> rfl

theorem beginMethod_eq (a : Assembler) (flags : AccessFlags .methods) (name descriptor : String) :
    a.beginMethod flags name descriptor
      = (a.outcome (.beginMethod flags name descriptor)).1.reportAll
        (a.outcome (.beginMethod flags name descriptor)).2 := by
  unfold beginMethod outcome effect perform MethodDescriptor.faults
  dsimp only
  rw [endField_eq]
  split
  next => rfl
  next => cases MethodDescriptor.read descriptor <;> rfl

theorem endMethod_eq (a : Assembler) :
    a.endMethod = (a.outcome .endMethod).1.reportAll (a.outcome .endMethod).2 := by
  unfold endMethod outcome effect perform
  cases a.method with
  | none => rfl
  | some m => simp only [reportAll_eq]

theorem inMethod_eq (a : Assembler) (directive : String)
    (change : OpenMethod → OpenMethod × List Fault) :
    a.inMethod directive change = (a.perform (.body directive change)).1.reportAll
      (a.perform (.body directive change)).2 := by
  unfold inMethod perform
  cases a.method <;> rfl

theorem beginTree_eq (a : Assembler) (target : AnnotationTarget) (type : String) :
    a.beginTree target type = (a.outcome (.beginTree target type)).1.reportAll
      (a.outcome (.beginTree target type)).2 := by
  unfold beginTree outcome effect perform OpenTree.begin
  dsimp only
  rw [← Option.not_isSome]
  split
  next => rfl
  next => split <;> rfl

theorem endTree_eq (a : Assembler) :
    a.endTree = (a.outcome .endTree).1.reportAll (a.outcome .endTree).2 := by
  unfold endTree outcome effect perform
  cases a.trees with
  | nil => rfl
  | cons tree around =>
    obtain ⟨type, elements, parent⟩ := tree
    cases parent with
    | target target => rfl
    | element name => cases around <;> rfl

/-- **A directive has its effect, and records the faults that it found.** -/
theorem run_eq (a : Assembler) (d : Directive) :
    a.run d = (a.outcome d).1.reportAll (a.outcome d).2 := by
  cases d with
  | line | report | source | implement | enclosing | innerClass | debugExtension | signature
  | deprecated | custom | endField => rfl
  | version version => exact a.setVersion_eq version
  | classHeader =>
    obtain ⟨settings, ⟨version, flags, thisClass⟩⟩ := a
    cases thisClass <;> rfl
  | superClass =>
    obtain ⟨settings, ⟨version, flags, thisClass, superClass⟩⟩ := a
    cases superClass <;> rfl
  | beginField flags name descriptor value => exact a.beginField_eq flags name descriptor value
  | beginMethod flags name descriptor => exact a.beginMethod_eq flags name descriptor
  | endMethod => exact a.endMethod_eq
  | limitStack | limitLocals | emit | label | localVariable | beginFrame | frameOffset
  | frameLocal | frameStack | frameUseLocals | endFrame => exact a.inMethod_eq _ _
  -- these find nothing in a method, so the only fault is to be outside one
  | handler | throws | defaultValue =>
    simp only [run, addCatch, addThrows, setDefault, inMethod, outcome, effect, perform]
    cases a.method <;> rfl
  | lineNumber value =>
    simp only [run, addLine, outcome, effect]
    split
    next => rfl
    next => exact a.inMethod_eq _ _
  | beginTree target type => exact a.beginTree_eq target type
  | element name value =>
    simp only [run, addElement, outcome, effect, perform]
    cases a.trees <;> rfl
  | beginNested name type =>
    simp only [run, beginNested, outcome, effect, perform]
    cases a.trees <;> rfl
  | endTree => exact a.endTree_eq

/-! ## What an effect leaves alone -/

/-- **All of a run that is not about its declarations.** -/
structure Surroundings where
  settings : Settings
  line : Option Nat
  diagnostics : Array Diagnostic
  form : Option StackMapForm
  version : Version
  trees : List OpenTree

def surroundings (a : Assembler) : Surroundings :=
  ⟨a.settings, a.line, a.diagnostics, a.form, a.classSoFar.version, a.trees⟩

@[simp] theorem surroundings_endField (a : Assembler) :
    a.endField.surroundings = a.surroundings := by
  rw [endField_eq]
  rfl

@[simp] theorem surroundings_modifyAttributes (a : Assembler)
    (change : CommonAttributes → CommonAttributes) :
    (a.modifyAttributes change).surroundings = a.surroundings := by
  unfold modifyAttributes
  cases a.method with
  | some m => rfl
  | none => cases a.field <;> rfl

@[simp] theorem surroundings_attach (a : Assembler) (target : AnnotationTarget)
    (tree : AnnotationTree) : (a.attach target tree).surroundings = a.surroundings := by
  unfold attach
  cases target with
  | visible | invisible => exact a.surroundings_modifyAttributes _
  | visibleParameter | invisibleParameter =>
    unfold modifyMethod
    cases a.method <;> rfl

/-- **What an effect does to the surroundings**: it records nothing, and few
effects do anything to them at all. -/
def Surroundings.after (s : Surroundings) (inMethod : Bool) : Effect → Surroundings
  | .line number => { s with line := some number }
  | .version version => if (version.refusedBy? s.form).isSome then s else { s with version }
  | .beginMethod _ _ =>
    if inMethod then s else { s with form := some (s.form.getD s.version.stackMapForm) }
  | .trees edit =>
    match edit inMethod s.trees with
    | .error _ => s
    | .ok edited => { s with trees := edited.trees }
  | _ => s

theorem surroundings_perform (a : Assembler) (e : Effect) :
    (a.perform e).1.surroundings = a.surroundings.after a.method.isSome e := by
  unfold perform Surroundings.after
  cases e with
  | line | find => rfl
  | version version =>
    dsimp only
    rw [show a.surroundings.form = a.form from rfl]
    cases version.refusedBy? a.form <;> rfl
  | head edit =>
    dsimp only
    cases edit a.classSoFar.head <;> rfl
  | attributes change => exact a.surroundings_modifyAttributes change
  | beginField field faults =>
    dsimp only
    split
    next => rfl
    next => exact a.surroundings_endField
  | endField => exact a.surroundings_endField
  | beginMethod method faults =>
    dsimp only
    split
    next => rfl
    next =>
      rw [endField_eq]
      rfl
  | endMethod | body | declaration =>
    dsimp only
    cases a.method <;> rfl
  | trees edit =>
    dsimp only
    rw [show a.surroundings.trees = a.trees from rfl]
    cases edit a.method.isSome a.trees with
    | error fault => rfl
    | ok edited =>
      obtain ⟨trees, ended⟩ := edited
      cases ended with
      | none => rfl
      | some ended => exact surroundings_attach _ ended.1 ended.2

theorem told_perform (a : Assembler) (e : Effect) :
    (a.perform e).1.settings = a.settings ∧ (a.perform e).1.line = e.lineAfter a.line
      ∧ (a.perform e).1.diagnostics = a.diagnostics := by
  have hafter : (a.surroundings.after a.method.isSome e).settings = a.settings
      ∧ (a.surroundings.after a.method.isSome e).line = e.lineAfter a.line
      ∧ (a.surroundings.after a.method.isSome e).diagnostics = a.diagnostics := by
    unfold Surroundings.after
    cases e with
    | version | beginMethod | trees =>
      dsimp only
      split <;> exact ⟨rfl, rfl, rfl⟩
    | _ => exact ⟨rfl, rfl, rfl⟩
  rwa [← surroundings_perform] at hafter

/-- **A directive records the faults that it finds**, each of them once, in
order and at the line it comes from. -/
theorem diagnostics_run (a : Assembler) (d : Directive) :
    (a.run d).diagnostics.toList
      = a.diagnostics.toList ++ (a.outcome d).2.map (Diagnostic.mk a.line) := by
  obtain ⟨-, hline, hdiagnostics⟩ := a.told_perform (a.effect d)
  have hlines : (a.outcome d).2.map (Diagnostic.mk (a.outcome d).1.line)
      = (a.outcome d).2.map (Diagnostic.mk a.line) := by
    unfold outcome
    rw [hline]
    -- the one effect that changes the line finds nothing
    cases a.effect d <;> rfl
  rw [run_eq, toList_diagnostics_reportAll, hlines]
  exact congrArg (·.toList ++ _) hdiagnostics

/-- **A directive records nothing exactly if it finds nothing.** -/
theorem run_clean_iff : (a.run d).diagnostics = a.diagnostics ↔ (a.outcome d).2 = [] := by
  rw [← Array.toList_inj, diagnostics_run, List.append_right_eq_self, List.map_eq_nil_iff]

/-- **What a directive does to the surroundings** is what its effect does, but
for what it records. -/
theorem surroundings_run (a : Assembler) (d : Directive) :
    (a.run d).surroundings
      = { a.surroundings.after a.method.isSome (a.effect d) with
          diagnostics := (a.run d).diagnostics } := by
  rw [← surroundings_perform, run_eq, reportAll_eq]
  rfl

/-! ## Directives that record nothing -/

/-- **What a directive does if it finds no fault.** -/
inductive Does (a : Assembler) : Directive → Assembler → Prop where
  | line (number : Nat) : Does a (.line number) { a with line := some number }
  | ignored (value : Int64) (hauto : a.settings.autoLines = true) : Does a (.lineNumber value) a
  | version (version : Version) (h : version.refusedBy? a.form = none) :
      Does a (.version version) { a with classSoFar := { a.classSoFar with version } }
  | head {d : Directive} {edit : ClassHead → Except Fault ClassHead} (head : ClassHead)
      (hd : HeadEdit d edit) (h : edit a.classSoFar.head = .ok head) :
      Does a d { a with classSoFar := a.classSoFar.withHead head }
  | attributes {d : Directive} {change : CommonAttributes → CommonAttributes}
      (hd : AttributeChange d change) : Does a d (a.modifyAttributes change)
  | beginField (flags : AccessFlags .fields) (name descriptor : String)
      (value : Option Literal) (hout : a.method = none)
      (h : (Field.opened flags name descriptor value).2 = []) :
      Does a (.beginField flags name descriptor value)
        { a.endField with field := some (Field.opened flags name descriptor value).1 }
  | endField : Does a .endField a.endField
  | beginMethod (flags : AccessFlags .methods) (name descriptor : String) (hout : a.method = none)
      (h : MethodDescriptor.faults descriptor = []) :
      Does a (.beginMethod flags name descriptor)
        { a.endField with
          form := some (a.form.getD a.classSoFar.version.stackMapForm)
          method := some (.begin (.declare flags name descriptor)) }
  | endMethod (m : OpenMethod) (hm : a.method = some m)
      (h : (m.close a.settings.autoLines).2 = []) :
      Does a .endMethod
        { a with
          method := none
          classSoFar := { a.classSoFar with
            methods := a.classSoFar.methods.push (m.close a.settings.autoLines).1 } }
  | body {d : Directive} {change : OpenMethod → OpenMethod × List Fault} (m : OpenMethod)
      (hd : BodyChange a.settings.autoLines a.line d change) (hm : a.method = some m)
      (h : (change m).2 = []) : Does a d { a with method := some (change m).1 }
  | declaration {d : Directive} {change : Method → Method} (m : OpenMethod)
      (hd : DeclarationChange d change) (hm : a.method = some m) :
      Does a d { a with method := some { m with method := change m.method } }
  | edit {d : Directive} {edit : Bool → List OpenTree → Except Fault TreeEdit}
      (trees : List OpenTree) (hd : TreeChange d edit)
      (h : edit a.method.isSome a.trees = .ok ⟨trees, none⟩) : Does a d { a with trees }
  | attach {d : Directive} {edit : Bool → List OpenTree → Except Fault TreeEdit}
      (trees : List OpenTree) (target : AnnotationTarget) (tree : AnnotationTree)
      (hd : TreeChange d edit)
      (h : edit a.method.isSome a.trees = .ok ⟨trees, some (target, tree)⟩) :
      Does a d (({ a with trees } : Assembler).attach target tree)

theorem Acts.does {e : Effect} (hd : a.Acts d e) (h : (a.perform e).2 = []) :
    a.Does d (a.perform e).1 := by
  unfold perform at h ⊢
  -- each test that the effect makes would give a fault, so its answer is known
  cases hd with
  | line number => exact .line number
  | report fault => cases h
  | ignored value hauto => exact .ignored value hauto
  | version version =>
    dsimp only at h ⊢
    cases hform : version.refusedBy? a.form with
    | none => exact .version version hform
    | some form => simp [hform] at h
  | @head _ edit hd =>
    dsimp only at h ⊢
    cases hedit : edit a.classSoFar.head with
    | error fault => simp [hedit] at h
    | ok head => exact .head head hd hedit
  | attributes hd => exact .attributes hd
  | beginField flags name descriptor value =>
    dsimp only at h ⊢
    split at h
    next => cases h
    next hout =>
      rw [if_neg hout]
      exact .beginField flags name descriptor value (Option.not_isSome_iff_eq_none.1 hout) h
  | endField => exact .endField
  | beginMethod flags name descriptor =>
    dsimp only at h ⊢
    split at h
    next => cases h
    next hout =>
      rw [if_neg hout]
      exact .beginMethod flags name descriptor (Option.not_isSome_iff_eq_none.1 hout) h
  | endMethod =>
    dsimp only at h ⊢
    cases hm : a.method with
    | none => simp [hm] at h
    | some m =>
      rw [hm] at h
      exact .endMethod m hm h
  | body directive hd =>
    dsimp only at h ⊢
    cases hm : a.method with
    | none => simp [hm] at h
    | some m =>
      rw [hm] at h
      exact .body m hd hm h
  | declaration directive hd =>
    dsimp only at h ⊢
    cases hm : a.method with
    | none => simp [hm] at h
    | some m => exact .declaration m hd hm
  | @trees _ edit hd =>
    dsimp only at h ⊢
    cases hedit : edit a.method.isSome a.trees with
    | error fault => simp [hedit] at h
    | ok edited =>
      obtain ⟨trees, ended⟩ := edited
      cases ended with
      | none => exact .edit trees hd hedit
      | some ended => exact .attach trees ended.1 ended.2 hd hedit

/-- **A directive that records nothing** does what it is for, and nothing
else. -/
theorem does_run (h : (a.run d).diagnostics = a.diagnostics) : a.Does d (a.run d) := by
  have hfaults := run_clean_iff.1 h
  rw [run_eq, hfaults]
  exact (a.acts d).does hfaults

end Assembler

end BytecodeAssembler
