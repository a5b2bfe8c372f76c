import BytecodeAssembler.Assembler.Directives

/-!
# Directives as data

What can be asked of the assembler, as a type of its own, so that a whole
run is a list of directives and its result a fold.
-/

namespace BytecodeAssembler

/-- **A directive.** -/
inductive Directive where
  /-- What follows comes from this source line. -/
  | line (number : Nat)
  /-- A fault found outside the assembler. -/
  | report (fault : Fault)
  -- The class
  | version (version : Version)
  | source (file : String)
  | classHeader (flags : AccessFlags .classes) (name : String)
  | superClass (name : String)
  | implement (name : String)
  | enclosing (enclosing : Enclosing)
  | innerClass (inner : InnerClass)
  | debugExtension (text : String)
  -- The innermost declaration
  | signature (text : String)
  | deprecated
  | custom (entry : CustomAttribute)
  -- Fields
  | beginField (flags : AccessFlags .fields) (name descriptor : String)
      (value : Option Literal)
  | endField
  -- Methods
  | beginMethod (flags : AccessFlags .methods) (name descriptor : String)
  | endMethod
  | limitStack (value : Int64)
  | limitLocals (value : Int64)
  | throws (name : String)
  | emit (mnemonic : String) (argument : Argument)
  | label (name : String)
  | handler (catchType : Option String) (start finish target : String)
  | lineNumber (value : Int64)
  | localVariable (index : Int64) (name descriptor : String) (signature : Option String)
      (range : Option (String × String))
  -- Frames
  | beginFrame
  | frameOffset (position : String)
  | frameLocal (type : String) (argument : Option String)
  | frameStack (type : String) (argument : Option String)
  | frameUseLocals (count : Int64)
  | endFrame
  -- Annotations
  | beginTree (target : AnnotationTarget) (type : String)
  | element (name : String) (value : ElementValue)
  | beginNested (name type : String)
  | endTree
  | defaultValue (value : ElementValue)

namespace Assembler

/-- **Carry out a directive.** -/
def run (a : Assembler) : Directive → Assembler
  | .line number => a.setLine number
  | .report fault => a.report fault
  | .version version => a.setVersion version
  | .source file => a.setSource file
  | .classHeader flags name => a.setClass flags name
  | .superClass name => a.setSuper name
  | .implement name => a.addInterface name
  | .enclosing enclosing => a.setEnclosing enclosing
  | .innerClass inner => a.addInnerClass inner
  | .debugExtension text => a.setDebugExtension text
  | .signature text => a.setSignature text
  | .deprecated => a.setDeprecated
  | .custom entry => a.addAttribute entry
  | .beginField flags name descriptor value => a.beginField flags name descriptor value
  | .endField => a.endField
  | .beginMethod flags name descriptor => a.beginMethod flags name descriptor
  | .endMethod => a.endMethod
  | .limitStack value => a.setLimitStack value
  | .limitLocals value => a.setLimitLocals value
  | .throws name => a.addThrows name
  | .emit mnemonic argument => a.emit mnemonic argument
  | .label name => a.plantLabel name
  | .handler catchType start finish target => a.addCatch catchType start finish target
  | .lineNumber value => a.addLine value
  | .localVariable index name descriptor signature range =>
    a.addVar index name descriptor signature range
  | .beginFrame => a.beginFrame
  | .frameOffset position => a.frameOffset position
  | .frameLocal type argument => a.frameLocal type argument
  | .frameStack type argument => a.frameStack type argument
  | .frameUseLocals count => a.frameUseLocals count
  | .endFrame => a.endFrame
  | .beginTree target type => a.beginTree target type
  | .element name value => a.addElement name value
  | .beginNested name type => a.beginNested name type
  | .endTree => a.endTree
  | .defaultValue value => a.setDefault value

/-- **Carry out directives one after the other.** -/
def runAll (a : Assembler) (directives : List Directive) : Assembler :=
  directives.foldl run a

end Assembler

end BytecodeAssembler
