import BytecodeAssembler.AccessFlags.Basic
import BytecodeAssembler.Argument
import BytecodeAssembler.Descriptor.Basic
import BytecodeAssembler.Opcode
import BytecodeAssembler.Operand
import BytecodeAssembler.Version.Basic

/-!
# Faults

A fault is a **cause**: it says what was wrong and holds the values that
were wrong, and its text is made from these in one place. Faults come in
four kinds. A *structural* fault is a wrong shape, order or name; a
*numeric* one is a value that does not fit its field; an *internal* one
means that the steps of the assembler were driven in the wrong order; and
an *input or output* fault comes from outside.
-/

namespace BytecodeAssembler

/-- The kinds of faults. -/
inductive FaultKind where
  /-- A wrong shape, order or name. -/
  | structural
  /-- A value that does not fit its field. -/
  | numeric
  /-- Steps driven in the wrong order. -/
  | internal
  /-- Something outside the assembler failed. -/
  | inputOutput
  deriving DecidableEq, Repr

/-- **What can go wrong**, from reading a source to writing a class. -/
inductive Fault where
  /-- A keyword that sets no flag of its carrier. -/
  | unknownFlag (carrier : Carrier) (keyword : String)
  -- Descriptors
  | badBaseType (found : Char)
  | missingBaseType
  | badFieldType (found : Char)
  | missingFieldType
  | emptyClassName
  | openClassName (name : String)
  | tooManyDimensions (count : Nat)
  | missingOpenParenthesis
  | missingCloseParenthesis
  | descriptorLeftover (found : Char) (text : String)
  -- Versions
  | malformedVersion (text : String)
  | versionTooLarge (text : String)
  -- Constant pools
  | poolClosed (constant : Constant)
  | poolAlreadyFinal
  | poolOverflow (constant : Constant) (index : Nat)
  | indexBeforeFinal (constant : Constant)
  | notRegistered (constant : Constant)
  | countBeforeFinal
  | textTooLong (length : Nat)
  | attributeTooLong (length : Nat)
  /-- More items than a two-byte count can hold. -/
  | tooMany (what : String) (count : Nat)
  -- Labels
  | duplicateLabel (name : String)
  | undefinedLabel (name : String)
  | undefinedLabels (names : List String)
  | offsetBeforeLayout (name : String)
  -- Instructions
  | operandShape (opcode : Opcode) (operand : Operand)
  | noArgumentSlots
  | noDimensions
  | emptyTableSwitch
  | tableSwitchOverflow (low : Int32)
  | duplicateKey (key : Int32)
  | branchTooFar (label mnemonic : String) (displacement : Int)
  | jumpTooFar (label : String) (displacement : Int)
  -- Method bodies
  | codeTooLong (length limit : Nat)
  | emptyHandlerRange (first last : String)
  | localEndsFirst (name : String)
  -- Stack map frames
  | labelOffsetTooLarge (name : String) (offset : Nat)
  | uninitializedOffset (offset : Int)
  | typeNeedsArgument (name : String)
  | typeTakesNoArgument (name : String)
  | unknownType (name : String)
  | copiedLocals (count available : Nat)
  | framesOutOfOrder (offset previous : UInt16)
  | badChop
  | badAppend
  -- Annotations
  | notIntegerElement (type : BaseType)
  | elementRange (value : Int) (type : BaseType)
  | annotatedParameters (count : Nat)
  -- Field constants
  | fieldRange (value : Int) (name descriptor : String)
  | fieldMismatch (constant : Constant) (descriptor name : String)
  | literalRange (value : Int) (descriptor : String)
  | literalMismatch (literal : Literal) (descriptor : String)
  -- Classes
  | unnamedClass
  | noSuperClass (name : String)
  | codeNotAllowed (method : String)
  | parameterSlots (method : String) (slots : Nat)
  -- Arguments
  | argumentShape (mnemonic : String) (argument : Argument)
  /-- A number that does not fit the field it is meant for. -/
  | outOfRange (what : String) (value : Int)
  | tableSwitchTargets (low high : Int) (count : Nat)
  | notArrayType (name : String)
  -- Directives
  | outsideMethod (directive : String)
  | instructionNotAllowed (method : String)
  | unknownInstruction (mnemonic : String)
  | stackMapFormFixed (version : Version) (form : StackMapForm)
  | classTwice
  | superTwice
  | fieldInsideMethod
  | methodInsideMethod
  | endMethodAlone
  | frameOpenAtMethodEnd
  | frameInsideFrame
  | outsideFrame
  | copyAfterLocals
  | endFrameAlone
  | annotationInsideOther
  | parameterOutsideMethod
  | elementOutside
  | nestedOutside
  | endAnnotationAlone
  | methodOpenAtEnd
  | annotationOpenAtEnd
  | missingClass
  | missingSuper
  -- Source text
  | unterminatedString
  | unknownEscape (found : Char)
  | unexpectedString (text : String)
  | usage (what form : String)
  | oneOperand (what : String) (count : Nat)
  | noOperand (what : String) (count : Nat)
  | unknownDirective (name : String)
  | unknownBlock (name : String)
  | unknownFrameEntry (name : String)
  | expectedEndFrame
  | frameOpenAtSourceEnd
  | oneFieldValue
  | notFieldValue (word : String)
  | switchOpen
  | missingTarget
  | tableTargetWithKey
  | lookupTargetWithoutKey
  | missingMethodDescriptor (path : String)
  | notMemberPath (path : String)
  | integerTooLarge (text : String)
  | notInteger (text : String)
  | malformedNumber (text : String)
  /-- A fault found by whoever drives the assembler. -/
  | reported (kind : FaultKind) (text : String)
  deriving DecidableEq, Repr

namespace Fault

/-- **The kind of a fault.** -/
def kind : Fault → FaultKind
  | .tooManyDimensions _ | .versionTooLarge _ | .poolOverflow _ _ | .textTooLong _
  | .attributeTooLong _ | .tooMany _ _ | .noArgumentSlots | .noDimensions
  | .tableSwitchOverflow _ | .branchTooFar _ _ _ | .jumpTooFar _ _ | .codeTooLong _ _
  | .labelOffsetTooLarge _ _ | .uninitializedOffset _ | .elementRange _ _
  | .annotatedParameters _ | .fieldRange _ _ _ | .literalRange _ _ | .parameterSlots _ _
  | .outOfRange _ _ | .integerTooLarge _ => .numeric
  | .poolClosed _ | .poolAlreadyFinal | .indexBeforeFinal _ | .notRegistered _
  | .countBeforeFinal | .offsetBeforeLayout _ | .framesOutOfOrder _ _ => .internal
  | .badChop | .badAppend => .inputOutput
  | .reported kind _ => kind
  | _ => .structural

end Fault

/-- Check that a two-byte count can hold the number of items. -/
def checkCount (what : String) (count : Nat) : Except Fault Unit :=
  if count ≤ 65535 then .ok () else .error (.tooMany what count)

/-- The check passes exactly up to 65535 items. -/
theorem checkCount_eq_ok_iff {what : String} {count : Nat} :
    checkCount what count = .ok () ↔ count ≤ 65535 := by
  unfold checkCount
  split <;> simp_all

end BytecodeAssembler
