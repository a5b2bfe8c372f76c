import BytecodeAssembler.Fault.Basic
import BytecodeAssembler.Number.Decimal

/-!
# Texts of faults

The wording of every fault stands here and nowhere else. A numeric or
internal fault, and one from outside, is shown with its kind in front.
-/

namespace BytecodeAssembler

open Text (quote)

/-- A literal as messages show it. -/
def Literal.display : Literal → String
  | .int value => "Int(" ++ toString value.toInt ++ ")"
  | .float value => "Float(" ++ value.display ++ ")"
  | .string text => "String(" ++ quote text ++ ")"

namespace Fault

/-- What happened, without the kind of the fault. -/
def detail : Fault → String
  | .unknownFlag carrier keyword =>
    s!"'{keyword}' is not a valid {carrier.describe} access flag"
  | .badBaseType found => s!"invalid base type character '{found}'"
  | .missingBaseType => "missing base type character"
  | .badFieldType found => s!"invalid field type character '{found}'"
  | .missingFieldType => "missing field type"
  | .emptyClassName => "empty class name"
  | .openClassName name => s!"missing terminator for 'L{name}'"
  | .tooManyDimensions count => s!"array type has {count} dimensions"
  | .missingOpenParenthesis => "expected '(' for method descriptor"
  | .missingCloseParenthesis => "expected ')' for method descriptor"
  | .descriptorLeftover found text =>
    s!"unexpected leftover input '{found}' in descriptor '{text}'"
  | .malformedVersion text => s!"malformed class file version '{text}'"
  | .versionTooLarge text => s!"class file version '{text}' is too large"
  | .poolClosed constant =>
    s!"cannot add {constant.display} to a finalized constant pool"
  | .poolAlreadyFinal => "constant pool was already finalized"
  | .poolOverflow constant index =>
    s!"constant pool overflow: {constant.display} would need index {index} (at most 65534 entries allowed)"
  | .indexBeforeFinal constant =>
    s!"unresolved pool: index of {constant.display} requested before finalize"
  | .notRegistered constant =>
    s!"item not registered in constant pool: {constant.display}"
  | .countBeforeFinal => "unresolved pool: count requested before finalize"
  | .textTooLong length => s!"UTF8 constant is {length} bytes long"
  | .attributeTooLong length => s!"attribute is {length} bytes long"
  | .tooMany what count => s!"too many {what} ({count})"
  | .duplicateLabel name => s!"duplicate label '{name}'"
  | .undefinedLabel name => s!"undefined label '{name}'"
  | .undefinedLabels names => "undefined label(s): " ++ ", ".intercalate names
  | .offsetBeforeLayout name => s!"offset of label '{name}' requested before layout"
  | .operandShape opcode operand =>
    s!"'{opcode.mnemonic}' expects {opcode.kind.describe} but got {operand.describe}"
  | .noArgumentSlots => "invokeinterface argument count must be at least 1"
  | .noDimensions => "multianewarray needs at least 1 dimension"
  | .emptyTableSwitch => "tableswitch needs at least one target"
  | .tableSwitchOverflow low => s!"tableswitch from {low.toInt} has too many targets"
  | .duplicateKey key => s!"duplicate lookupswitch key {key.toInt}"
  | .branchTooFar label mnemonic displacement =>
    s!"branch to '{label}' is too far for '{mnemonic}' ({displacement})"
  | .jumpTooFar label displacement => s!"jump to '{label}' is too far ({displacement})"
  | .codeTooLong length limit => s!"method code is {length} bytes long (at most {limit})"
  | .emptyHandlerRange first last => s!"empty exception range from '{first}' to '{last}'"
  | .localEndsFirst name => s!"local variable '{name}' ends before it starts"
  | .labelOffsetTooLarge name offset => s!"label '{name}' is at offset {offset}"
  | .uninitializedOffset offset => s!"uninitialized offset {offset} is out of range"
  | .typeNeedsArgument name => s!"verification type '{name}' needs an argument"
  | .typeTakesNoArgument name => s!"verification type '{name}' takes no argument"
  | .unknownType name => s!"unknown verification type '{name}'"
  | .copiedLocals count available =>
    s!"cannot use {count} locals from a previous frame that only has {available}"
  | .framesOutOfOrder offset previous =>
    s!"stack map frames out of order: frame at offset {offset.toNat} follows frame at offset {previous.toNat}"
  | .badChop => "chop frames remove 1-3 locals"
  | .badAppend => "append frames add 1-3 locals"
  | .notIntegerElement type => s!"'{type.letter}' element values are not integers"
  | .elementRange value type => s!"{value} does not fit in a '{type.letter}' element"
  | .annotatedParameters count => s!"annotations for {count} parameters (at most 255)"
  | .fieldRange value name descriptor =>
    s!"{value} does not fit in field '{name}' of type '{descriptor}'"
  | .fieldMismatch constant descriptor name =>
    s!"constant value {constant.display} does not match type '{descriptor}' of field '{name}'"
  | .literalRange value descriptor =>
    s!"{value} does not fit in a field of type '{descriptor}'"
  | .literalMismatch literal descriptor =>
    s!"constant value {literal.display} does not match field type '{descriptor}'"
  | .unnamedClass => "missing class name"
  | .noSuperClass name => s!"missing super class for '{name}'"
  | .codeNotAllowed method => s!"abstract or native method '{method}' cannot have code"
  | .parameterSlots method slots => s!"parameters of '{method}' take {slots} slots"
  | .argumentShape mnemonic argument => s!"'{mnemonic}' cannot take {argument.describe}"
  | .outOfRange what value => s!"{what} {value} is out of range"
  | .tableSwitchTargets low high count =>
    s!"tableswitch from {low} to {high} needs {high - low + 1} targets but has {count}"
  | .notArrayType name => s!"'{name}' is not a primitive array type"
  | .outsideMethod directive => s!"{directive} outside of a method"
  | .instructionNotAllowed method =>
    s!"abstract or native method '{method}' cannot contain code"
  | .unknownInstruction mnemonic => s!"unknown instruction '{mnemonic}'"
  | .stackMapFormFixed version form =>
    s!"version {version.display} needs a {version.stackMapForm.attributeName} attribute but methods already use {form.attributeName}"
  | .classTwice => "class is already declared"
  | .superTwice => "super class is already declared"
  | .fieldInsideMethod => "field declared inside a method"
  | .methodInsideMethod => "missing '.end method' before new method"
  | .endMethodAlone => "'.end method' without a method"
  | .frameOpenAtMethodEnd => "missing '.end stack' before end of method"
  | .frameInsideFrame => "nested '.stack'"
  | .outsideFrame => "frame directive outside of '.stack'"
  | .copyAfterLocals => "'use' must come before any locals"
  | .endFrameAlone => "'.end stack' without '.stack'"
  | .annotationInsideOther =>
    "annotation started inside another one (use a nested annotation)"
  | .parameterOutsideMethod => "parameter annotation outside of a method"
  | .elementOutside => "annotation value outside of an annotation"
  | .nestedOutside => "nested annotation outside of an annotation"
  | .endAnnotationAlone => "'.end annotation' without an annotation"
  | .methodOpenAtEnd => "missing '.end method' at end of class"
  | .annotationOpenAtEnd => "missing '.end annotation' at end of class"
  | .missingClass => "missing '.class' or '.interface'"
  | .missingSuper => "missing '.super'"
  | .unterminatedString => "unterminated string"
  | .unknownEscape found => s!"unknown escape '\\{found}'"
  | .unexpectedString text => s!"unexpected string \"{text}\""
  | .usage what form => s!"expected '{what} {form}'"
  | .oneOperand what count => s!"'{what}' takes one operand but got {count}"
  | .noOperand what count => s!"'{what}' takes no operand but got {count}"
  | .unknownDirective name => s!"unknown directive '{name}'"
  | .unknownBlock name => s!"unknown block '.end {name}'"
  | .unknownFrameEntry name => s!"unknown frame directive '{name}'"
  | .expectedEndFrame => "expected '.end stack'"
  | .frameOpenAtSourceEnd => "missing '.end stack' at end of source"
  | .oneFieldValue => "expected one value after '='"
  | .notFieldValue word => s!"'{word}' is not a constant value"
  | .switchOpen => "switch is missing its 'default' target"
  | .missingTarget => "missing switch target"
  | .tableTargetWithKey => "tableswitch targets are plain labels"
  | .lookupTargetWithoutKey => "expected '<key> : <label>'"
  | .missingMethodDescriptor path => s!"'{path}' is missing a method descriptor"
  | .notMemberPath path => s!"'{path}' is not of the form <class>/<name>"
  | .integerTooLarge text => s!"integer {text} is out of range"
  | .notInteger text => s!"expected an integer, found '{text}'"
  | .malformedNumber text => s!"malformed number '{text}'"
  | .reported _ text => text

/-- **The text of a fault.** -/
def message (fault : Fault) : String :=
  match fault.kind with
  | .structural => fault.detail
  | .numeric => "value out of range: " ++ fault.detail
  | .internal => "internal assembler error: " ++ fault.detail
  | .inputOutput => "I/O error: " ++ fault.detail

end Fault

end BytecodeAssembler
