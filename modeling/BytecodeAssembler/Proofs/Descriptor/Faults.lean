import BytecodeAssembler.Descriptor.Reader
import BytecodeAssembler.Proofs.Outcome

/-!
# What can be wrong with a descriptor

A descriptor is read from its text alone, and all that can be wrong is that the
text is none: it breaks off, it has a letter that stands for no type, a class
without a name or too many brackets, or it goes on behind its end. These faults
are listed by `Fault.OfDescriptor`. Whoever reads a descriptor can fail with one
of them and with nothing else, so what is to be known of such a fault is known
from the list.
-/

namespace BytecodeAssembler

/-- **The faults of a text that is no descriptor.** -/
inductive Fault.OfDescriptor : Fault → Prop where
  | badFieldType (found : Char) : OfDescriptor (.badFieldType found)
  | missingFieldType : OfDescriptor .missingFieldType
  | emptyClassName : OfDescriptor .emptyClassName
  | openClassName (name : String) : OfDescriptor (.openClassName name)
  | tooManyDimensions (count : Nat) : OfDescriptor (.tooManyDimensions count)
  | missingOpenParenthesis : OfDescriptor .missingOpenParenthesis
  | missingCloseParenthesis : OfDescriptor .missingCloseParenthesis
  | leftover (found : Char) (text : String) : OfDescriptor (.descriptorLeftover found text)

/-- A reader whose text has to be used up. -/
theorem readWhole_failsOnly {α : Type} {reader : List Char → Except Fault (α × List Char)}
    (h : ∀ text, FailsOnly Fault.OfDescriptor (reader text)) (text : String) :
    FailsOnly Fault.OfDescriptor (readWhole reader text) := by
  unfold readWhole
  split
  next fault hfault => exact .error (h _ fault hfault)
  next => exact .ok _
  next => exact .error (.leftover _ _)

namespace FieldType

theorem readElement_failsOnly (text : List Char) :
    FailsOnly Fault.OfDescriptor (readElement text) := by
  unfold readElement readClassName
  split
  next => exact .error .missingFieldType
  next =>
    dsimp only
    split
    next => exact .error (.openClassName _)
    next => exact FailsOnly.ite (fun _ => .error .emptyClassName) fun _ => .ok _
  next c _ _ =>
    cases BaseType.ofLetter? c with
    | none => exact .error (.badFieldType c)
    | some type => exact .ok _

theorem readFrom_failsOnly (text : List Char) : FailsOnly Fault.OfDescriptor (readFrom text) := by
  unfold readFrom
  refine FailsOnly.ite (fun _ => readElement_failsOnly text) fun _ =>
    FailsOnly.ite (fun _ => .error (.tooManyDimensions _)) fun _ => ?_
  cases hread : readElement (text.dropWhile (· == '[')) with
  | error fault => exact .error (readElement_failsOnly _ fault hread)
  | ok result => exact .ok _

/-- **A text that spells no field type is at fault.** -/
theorem read_failsOnly (text : String) : FailsOnly Fault.OfDescriptor (read text) :=
  readWhole_failsOnly readFrom_failsOnly text

end FieldType

namespace MethodDescriptor

theorem readParameters_failsOnly (text : List Char) (rev : List FieldType) :
    FailsOnly Fault.OfDescriptor (readParameters text rev) := by
  fun_induction readParameters text rev with
  | case1 => exact .error .missingCloseParenthesis
  | case2 => exact .ok _
  | case3 text rev _ _ fault hread => exact .error (FieldType.readFrom_failsOnly _ fault hread)
  | case4 text rev _ _ type rest hread _ ih => exact ih

theorem readResult_failsOnly (text : List Char) :
    FailsOnly Fault.OfDescriptor (readResult text) := by
  unfold readResult
  split
  next => exact .ok _
  next =>
    cases hread : FieldType.readFrom text with
    | error fault => exact .error (FieldType.readFrom_failsOnly _ fault hread)
    | ok result => exact .ok _

theorem readFrom_failsOnly (text : List Char) : FailsOnly Fault.OfDescriptor (readFrom text) := by
  unfold readFrom
  split
  next =>
    refine (readParameters_failsOnly _ _).bind fun _ _ => ?_
    exact (readResult_failsOnly _).bind fun _ _ => .ok _
  next => exact .error .missingOpenParenthesis

/-- **A text that spells no method descriptor is at fault.** -/
theorem read_failsOnly (text : String) : FailsOnly Fault.OfDescriptor (read text) :=
  readWhole_failsOnly readFrom_failsOnly text

end MethodDescriptor

end BytecodeAssembler
