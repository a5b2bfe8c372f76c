import BytecodeAssembler.Constant

/-!
# Arguments and literals

An **argument** is the operand of an instruction as it is written: numbers
are not yet checked against a field and labels are still names. Which
arguments an instruction takes depends on its opcode. A **literal** is the
constant value written for a field.
-/

namespace BytecodeAssembler

open Number (Binary64)

/-- **The operand of an instruction as it is written.** -/
inductive Argument where
  /-- Nothing. -/
  | none
  /-- An integer. -/
  | int (value : Int64)
  /-- A floating-point number. -/
  | float (value : Binary64)
  /-- A quoted string. -/
  | string (text : String)
  /-- A bare word: a class name, a label or a primitive array type. -/
  | word (text : String)
  /-- A field or method. -/
  | member (member : MemberRef)
  /-- A method of an interface and its argument slots. -/
  | interfaceMember (member : MemberRef) (slots : Int64)
  /-- A local variable and what is added to it. -/
  | intPair (index delta : Int64)
  /-- A class and a number of dimensions. -/
  | wordInt (text : String) (value : Int64)
  /-- Targets for the keys from `low` on. An upper end is only there to be
  checked against the number of targets. -/
  | tableSwitch (low : Int64) (high : Option Int64) (targets : List String)
      (fallback : String)
  /-- Targets by key. -/
  | lookupSwitch (pairs : List (Int64 × String)) (fallback : String)
  deriving DecidableEq, Repr

/-- What the argument is, in words. -/
def Argument.describe : Argument → String
  | .none => "no operand"
  | .int _ => "an integer"
  | .float _ => "a floating point number"
  | .string _ => "a string"
  | .word _ => "a name"
  | .member _ => "a member reference"
  | .interfaceMember _ _ => "a member reference and count"
  | .intPair _ _ => "two integers"
  | .wordInt _ _ => "a name and an integer"
  | .tableSwitch _ _ _ _ => "a table switch"
  | .lookupSwitch _ _ => "a lookup switch"

/-- **The constant value written for a field.** -/
inductive Literal where
  /-- An integer. -/
  | int (value : Int64)
  /-- A floating-point number. -/
  | float (value : Binary64)
  /-- A quoted string. -/
  | string (text : String)
  deriving DecidableEq, Repr

end BytecodeAssembler
