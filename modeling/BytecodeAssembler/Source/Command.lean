import BytecodeAssembler.Directive
import BytecodeAssembler.Source.Operands
import BytecodeAssembler.Version.Reader

/-!
# Commands of a line

A line asks for one thing: a directive, the begin of a frame, or the begin
of a switch, whose targets stand on the lines that follow. What a line asks
for is read off its tokens alone; carrying it out is another matter.
-/

namespace BytecodeAssembler.Source

/-- The keys of a switch as its first line gives them. -/
inductive SwitchHead where
  /-- The keys from the lower end on, and perhaps the upper end. -/
  | table (low : Int64) (high : Option Int64)
  /-- The keys stand with their targets. -/
  | lookup
  deriving DecidableEq, Repr

/-- **What a line asks for.** -/
inductive Command where
  /-- A directive. -/
  | directive (directive : Directive)
  /-- The lines of a frame follow. -/
  | beginFrame
  /-- The targets of a switch follow. -/
  | beginSwitch (head : SwitchHead)

/-! ## Directives -/

/-- The header of a class. The flags of an interface are added to those that
are given. -/
def readClass (what : String) (implied : AccessFlags .classes) (args : List Token) :
    Except Fault Directive :=
  match splitLast? args with
  | none => .error (.usage what "[<flags>] <name>")
  | some (keywords, name) => do
    let given ← flags keywords
    return .classHeader (given.union implied) (← name.asWord)

/-- The part of a field's line before the equals sign, and what follows it
if there is one. -/
def splitValue (args : List Token) : List Token × Option (List Token) :=
  let isEquals := (· == Token.word "=")
  (args.takeWhile (!isEquals ·),
    if args.any isEquals then some ((args.dropWhile (!isEquals ·)).drop 1) else none)

/-- The value behind the equals sign. -/
def readFieldValue : Option (List Token) → Except Fault (Option Literal)
  | none => .ok none
  | some [token] => some <$> readLiteral token
  | some _ => .error .oneFieldValue

/-- The header of a field: flags, name and descriptor, and perhaps a
value. -/
def readField (args : List Token) : Except Fault Directive :=
  let (declaration, value) := splitValue args
  match declaration.reverse with
  | descriptor :: name :: keywords => do
    let value ← readFieldValue value
    let given ← flags keywords.reverse
    return .beginField given (← name.asWord) (← descriptor.asWord) value
  | _ => .error (.usage ".field" "[<flags>] <name> <descriptor> [= <value>]")

/-- The header of a method: flags, and the name with the descriptor. -/
def readMethodHeader (args : List Token) : Except Fault Directive :=
  let misuse := Fault.usage ".method" "[<flags>] <name><descriptor>"
  match splitLast? args with
  | none => .error misuse
  | some (keywords, last) => do
    let text ← last.asWord
    match splitBefore? '(' text.toList with
    | none => .error misuse
    | some (name, descriptor) =>
      return .beginMethod (← flags keywords) (String.ofList name) (String.ofList descriptor)

/-- The end of a block. -/
def readEnd (args : List Token) : Except Fault Directive := do
  match ← singleWord ".end" args with
  | "field" => return .endField
  | "method" => return .endMethod
  | "stack" => throw .endFrameAlone
  | other => throw (.unknownBlock other)

/-- A limit of the open method. -/
def readLimit : List Token → Except Fault Directive
  | [.word "stack", value] => .limitStack <$> integer value
  | [.word "locals", value] => .limitLocals <$> integer value
  | _ => .error (.usage ".limit" "stack|locals <n>")

/-- The class that a handler catches; the word `all` stands for every
one. -/
def catchType (name : String) : Option String :=
  if name = "all" then none else some name

/-- An exception handler. -/
def readCatch : List Token → Except Fault Directive
  | [type, .word "from", start, .word "to", finish, .word "using", target] => do
    let type ← type.asWord
    return .handler (catchType type) (← start.asWord) (← finish.asWord) (← target.asWord)
  | _ => .error (.usage ".catch" "<class> from <label> to <label> using <label>")

/-- How a local variable is written. -/
def variableForm : String :=
  "<n> is <name> <descriptor> [signature <sig>] [from <label> to <label>]"

/-- The generic signature of a local variable, if it has one, and the tokens
behind it. -/
def splitSignature : List Token → Option String × List Token
  | .word "signature" :: signature :: rest => (some signature.text, rest)
  | rest => (none, rest)

/-- The range of a local variable, if it has one. -/
def readRange : List Token → Except Fault (Option (String × String))
  | [] => .ok none
  | [.word "from", start, .word "to", finish] => do
    return some (← start.asWord, ← finish.asWord)
  | _ => .error (.usage ".var" variableForm)

/-- A local variable. -/
def readVariable : List Token → Except Fault Directive
  | index :: .word "is" :: name :: descriptor :: rest => do
    let index ← integer index
    let descriptor ← descriptor.asWord
    let (signature, rest) := splitSignature rest
    return .localVariable index name.text descriptor signature (← readRange rest)
  | _ => .error (.usage ".var" variableForm)

/-- The flags that make a class an interface. -/
def interfaceFlags : AccessFlags .classes :=
  .ofBits (AccessFlags.interfaceBit ||| AccessFlags.abstractBit)

/-- **Read a directive.** -/
def readDirective (what : String) (args : List Token) : Except Fault Command :=
  match what with
  | ".class" => .directive <$> readClass what .empty args
  | ".interface" => .directive <$> readClass what interfaceFlags args
  | ".super" => return .directive (.superClass (← singleWord what args))
  | ".implements" => return .directive (.implement (← singleWord what args))
  | ".source" => return .directive (.source (← single what args).text)
  | ".bytecode" => return .directive (.version (← Version.read (← singleWord what args)))
  | ".signature" => return .directive (.signature (← single what args).text)
  | ".deprecated" => do
    noOperands what args
    return .directive .deprecated
  | ".field" => .directive <$> readField args
  | ".method" => .directive <$> readMethodHeader args
  | ".end" => .directive <$> readEnd args
  | ".limit" => .directive <$> readLimit args
  | ".throws" => return .directive (.throws (← singleWord what args))
  | ".catch" => .directive <$> readCatch args
  | ".line" => return .directive (.lineNumber (← singleInteger what args))
  | ".var" => .directive <$> readVariable args
  | ".stack" => do
    noOperands what args
    return .beginFrame
  | _ => .error (.unknownDirective what)

/-! ## Frames -/

/-- The name of a type and its argument, if it has one. -/
def readType (what : String) : List Token → Except Fault (String × Option String)
  | [name] => return (← name.asWord, none)
  | [name, argument] => return (← name.asWord, some (← argument.asWord))
  | _ => .error (.usage what "<type> [<argument>]")

/-- **Read a line between the begin and the end of a frame.** -/
def readFrameLine (what : String) (args : List Token) : Except Fault Directive :=
  match what with
  | ".end" => if args = [.word "stack"] then .ok .endFrame else .error .expectedEndFrame
  | "offset" => return .frameOffset (← singleWord what args)
  | "locals" => do
    let (name, argument) ← readType what args
    return .frameLocal name argument
  | "stack" => do
    let (name, argument) ← readType what args
    return .frameStack name argument
  | "use" =>
    match args with
    | [count, .word "locals"] => return .frameUseLocals (← integer count)
    | _ => .error (.usage what "<n> locals")
  | _ => .error (.unknownFrameEntry what)

/-! ## Instructions -/

/-- A value as an argument. -/
def argumentOf : Literal → Argument
  | .int value => .int value
  | .float value => .float value
  | .string text => .string text

/-- A number or string as what it stands for, any other word as itself. -/
def readWordOrValue (token : Token) : Except Fault Argument := do
  match ← readValue? token with
  | some value => return argumentOf value
  | none => return .word token.text

/-- A number as what it stands for, any other word as itself. -/
def readWordOrNumber (text : String) : Except Fault Argument := do
  match ← readNumber? text with
  | some value => return argumentOf value
  | none => return .word text

/-- A method of an interface, perhaps with its argument slots. -/
def readInterfaceMethod (what : String) : List Token → Except Fault Argument
  | [path] => return .member (← readMethod (← path.asWord))
  | [path, count] => do
    let method ← readMethod (← path.asWord)
    return .interfaceMember method (← integer count)
  | _ => .error (.usage what "<class>/<name><descriptor> [<count>]")

/-- The ends of the keys of a table. -/
def readTable (what : String) : List Token → Except Fault SwitchHead
  | [low] => return .table (← integer low) none
  | [low, high] => return .table (← integer low) (some (← integer high))
  | _ => .error (.usage what "<low> [<high>]")

/-- **Read the operands of an instruction**, as its opcode wants them. -/
def readInstruction (opcode : Opcode) (args : List Token) : Except Fault Command :=
  let what := opcode.mnemonic
  let emit (argument : Argument) : Command := .directive (.emit what argument)
  match opcode.kind with
  | .none => do
    noOperands what args
    return emit .none
  | .localVar | .byte | .short => return emit (.int (← singleInteger what args))
  | .increment =>
    match args with
    | [index, delta] => return emit (.intPair (← integer index) (← integer delta))
    | _ => .error (.usage what "<index> <increment>")
  | .arrayType => emit <$> (singleWord what args >>= readWordOrNumber)
  | .branch | .branchWide | .classRef => return emit (.word (← singleWord what args))
  | .load | .loadWide | .loadTwo => emit <$> (single what args >>= readWordOrValue)
  | .field =>
    match args with
    | [path, descriptor] => do
      let path ← path.asWord
      let descriptor ← descriptor.asWord
      return emit (.member (← readMember path.toList descriptor.toList))
    | _ => .error (.usage what "<class>/<name> <descriptor>")
  | .method => return emit (.member (← readMethod (← singleWord what args)))
  | .interfaceMethod => emit <$> readInterfaceMethod what args
  | .multiArray =>
    match args with
    | [type, dimensions] =>
      return emit (.wordInt (← type.asWord) (← integer dimensions))
    | _ => .error (.usage what "<class> <dimensions>")
  | .tableSwitch => .beginSwitch <$> readTable what args
  | .lookupSwitch => do
    noOperands what args
    return .beginSwitch .lookup

/-- **Read a command.** A mnemonic that no opcode has is handed on without
operands. -/
def readCommand (first : String) (args : List Token) : Except Fault Command :=
  if first.toList.head? = some '.' then readDirective first args
  else
    match Opcode.find? first with
    | none => .ok (.directive (.emit first .none))
    | some opcode => readInstruction opcode args

end BytecodeAssembler.Source
