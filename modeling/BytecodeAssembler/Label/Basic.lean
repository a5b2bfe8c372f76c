/-!
# Labels

A label is a **handle**: the number of its slot in the label table of one
method body. Two labels of the same body are the same place exactly when
their numbers are equal, whatever they are called.
-/

namespace BytecodeAssembler

/-- A position in a method body, known by the number of its slot. -/
structure Label where
  /-- The number of the slot. -/
  index : Nat
  deriving DecidableEq, Hashable, Repr, Inhabited

/-- A label as messages show it when it has no name. -/
def Label.display (l : Label) : String := "l" ++ toString l.index

/-- **Whether a label name is a number.** A numeric name denotes a place
that exists already where it is written, so it goes in front of the
instruction last emitted. -/
def Label.isNumeric (name : String) : Bool :=
  !name.isEmpty && name.toList.all Char.isDigit

end BytecodeAssembler
