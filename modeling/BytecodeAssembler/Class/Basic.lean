import BytecodeAssembler.Class.Field
import BytecodeAssembler.Class.Method

/-!
# Classes

A class is encoded in two passes. The first one collects the constants of
the class in a fixed order and numbers them; the second one writes the
class with the numbers in the place of names. Every class but
`java/lang/Object` has a class above it.
-/

namespace BytecodeAssembler

/-- The class, and perhaps the method, that a local class stands in. -/
structure Enclosing where
  /-- The class. -/
  owner : String
  /-- The name and descriptor of the method, if there is one. -/
  method : Option (String × String)
  deriving DecidableEq, Repr

/-- **An inner class.** What is absent is written as 0. -/
structure InnerClass where
  /-- The inner class. -/
  inner : Option String
  /-- The class it is a member of. -/
  outer : Option String
  /-- Its simple name. -/
  name : Option String
  /-- The access flags. -/
  flags : AccessFlags .innerClasses
  deriving DecidableEq, Repr

/-- **A class.** -/
structure Class where
  /-- The version of its class file. -/
  version : Version
  /-- The access flags. -/
  flags : AccessFlags .classes
  /-- The name. -/
  thisClass : Option String
  /-- The name of the class above it. -/
  superClass : Option String
  /-- The names of the interfaces. -/
  interfaces : Array String
  /-- The fields. -/
  fields : Array Field
  /-- The methods. -/
  methods : Array Method
  /-- The name of the source file. -/
  sourceFile : Option String
  /-- What it stands in, for a local class. -/
  enclosing : Option Enclosing
  /-- The inner classes. -/
  innerClasses : Array InnerClass
  /-- A text for debuggers. -/
  debugExtension : Option String
  /-- The attributes. -/
  attributes : CommonAttributes

namespace Class

/-- A class without a name and with nothing in it. -/
def empty : Class :=
  { version := .initial, flags := .empty, thisClass := none, superClass := none,
    interfaces := #[], fields := #[], methods := #[], sourceFile := none,
    enclosing := none, innerClasses := #[], debugExtension := none,
    attributes := .empty }

instance : Inhabited Class := ⟨empty⟩

/-- The name of the class that has no class above it. -/
def rootName : String := "java/lang/Object"

end Class

end BytecodeAssembler
