import BytecodeAssembler.Assembler.OpenMethod
import BytecodeAssembler.Class.Basic
import BytecodeAssembler.Fault.Message

/-!
# The assembler

The assembler takes directives one by one and builds a class. A directive
that cannot be carried out does not stop it: the fault is **recorded** with
the source line, and the next directive is taken, so that one run reports
as much as possible. Whatever was recorded, no class comes out of a run
with faults.
-/

namespace BytecodeAssembler

/-- What a run of the assembler is told beforehand. -/
structure Settings where
  /-- Whether every instruction from a new source line gets a line number. -/
  autoLines : Bool
  /-- The version of a class that names none. -/
  defaultVersion : Version
  /-- The source file of a class that names none. -/
  sourceFile : Option String

/-- The settings of a run that is told nothing. -/
def Settings.initial : Settings := ⟨false, .initial, none⟩

/-- **A fault with the source line that caused it.** Faults that only come
up when the class is encoded have no line. -/
structure Diagnostic where
  /-- The line. -/
  line : Option Nat
  /-- The fault. -/
  fault : Fault
  deriving DecidableEq, Repr

/-- A diagnostic as it is shown. -/
def Diagnostic.message (d : Diagnostic) : String :=
  match d.line with
  | some line => s!"line {line}: {d.fault.message}"
  | none => d.fault.message

/-- What an annotation is attached to. -/
inductive AnnotationTarget where
  /-- The innermost declaration, to be seen at run time. -/
  | visible
  /-- The innermost declaration, not to be seen at run time. -/
  | invisible
  /-- A parameter of the open method, to be seen at run time. -/
  | visibleParameter (index : Nat)
  /-- A parameter of the open method, not to be seen at run time. -/
  | invisibleParameter (index : Nat)
  deriving DecidableEq, Repr

namespace AnnotationTarget

/-- Whether the target is a parameter. -/
def isParameter : AnnotationTarget → Bool
  | .visibleParameter _ | .invisibleParameter _ => true
  | .visible | .invisible => false

end AnnotationTarget

/-- Where an annotation goes when it ends. -/
inductive AnnotationParent where
  /-- To a declaration or parameter. -/
  | target (target : AnnotationTarget)
  /-- Into the annotation around it, as the element of this name. -/
  | element (name : String)
  deriving DecidableEq, Repr

/-- **An annotation whose elements are still being given.** -/
structure OpenTree where
  /-- The descriptor of its type. -/
  type : String
  /-- The elements so far. -/
  elements : Array (String × ElementValue)
  /-- Where it goes. -/
  parent : AnnotationParent

/-- The annotation as it stands. -/
def OpenTree.close (t : OpenTree) : AnnotationTree := ⟨t.type, t.elements.toList⟩

/-- **The state of a run.** -/
structure Assembler where
  /-- What the run was told. -/
  settings : Settings
  /-- The class so far, without the members that are open. -/
  classSoFar : Class
  /-- The source line of the directives that follow. -/
  line : Option Nat
  /-- The faults so far, in the order in which they came up. -/
  diagnostics : Array Diagnostic
  /-- The form of stack maps, which the first method fixes. -/
  form : Option StackMapForm
  /-- The open field. -/
  field : Option Field
  /-- The open method. -/
  method : Option OpenMethod
  /-- The open annotations, innermost first. -/
  trees : List OpenTree

namespace Assembler

/-- **A run that has seen nothing.** -/
def start (settings : Settings) : Assembler :=
  { settings
    classSoFar := { Class.empty with version := settings.defaultVersion }
    line := none
    diagnostics := #[]
    form := none
    field := none
    method := none
    trees := [] }

/-- The name of the class, once it is declared. -/
def className? (a : Assembler) : Option String := a.classSoFar.thisClass

/-- **Record a fault** at the current line. -/
def report (a : Assembler) (fault : Fault) : Assembler :=
  { a with diagnostics := a.diagnostics.push ⟨a.line, fault⟩ }

/-- Record several faults, in order. -/
def reportAll (a : Assembler) (faults : List Fault) : Assembler :=
  faults.foldl report a

/-- **Change the open method.** Outside of a method the directive is at
fault. -/
def inMethod (a : Assembler) (directive : String)
    (change : OpenMethod → OpenMethod × List Fault) : Assembler :=
  match a.method with
  | none => a.report (.outsideMethod directive)
  | some m =>
    let a := { a with method := none }
    let (m, faults) := change m
    { a with method := some m }.reportAll faults

/-- **Change the attributes of the innermost declaration**: of the open
method, else of the open field, else of the class. -/
def modifyAttributes (a : Assembler) (change : CommonAttributes → CommonAttributes) :
    Assembler :=
  match a.method with
  | some m =>
    let a := { a with method := none }
    let method := { m.method with attributes := change m.method.attributes }
    { a with method := some { m with method } }
  | none =>
    match a.field with
    | some f =>
      let a := { a with field := none }
      { a with field := some { f with attributes := change f.attributes } }
    | none =>
      let c := a.classSoFar
      { a with classSoFar := { c with attributes := change c.attributes } }

end Assembler

end BytecodeAssembler
