import BytecodeAssembler.AccessFlags.Keywords
import BytecodeAssembler.Source.Number

/-!
# Operands of a line

What the tokens behind a directive or mnemonic have to be: how many there
are, that they are words, and how a word names a member of a class.
-/

namespace BytecodeAssembler.Source

/-- **The only operand.** -/
def single (what : String) : List Token → Except Fault Token
  | [token] => .ok token
  | args => .error (.oneOperand what args.length)

/-- The only operand, which has to be a word. -/
def singleWord (what : String) (args : List Token) : Except Fault String := do
  (← single what args).asWord

/-- The only operand, which has to be an integer. -/
def singleInteger (what : String) (args : List Token) : Except Fault Int64 := do
  readInteger (← singleWord what args)

/-- **No operand at all.** -/
def noOperands (what : String) : List Token → Except Fault Unit
  | [] => .ok ()
  | args => .error (.noOperand what args.length)

/-- The texts of tokens that all have to be words. -/
def words (args : List Token) : Except Fault (List String) := args.mapM Token.asWord

/-- An integer operand. -/
def integer (token : Token) : Except Fault Int64 := do
  readInteger (← token.asWord)

/-- The access flags that keywords give. -/
def flags {c : Carrier} (args : List Token) : Except Fault (AccessFlags c) := do
  AccessFlags.ofKeywords (← words args)

/-- The last of several operands and those before it. -/
def splitLast? (args : List Token) : Option (List Token × Token) :=
  args.getLast?.map fun last => (args.dropLast, last)

/-- **Cut a text before the first character that is `c`**, if there is
one. -/
def splitBefore? (c : Char) (text : List Char) : Option (List Char × List Char) :=
  if text.contains c then some (text.takeWhile (· != c), text.dropWhile (· != c))
  else none

/-- **Cut a text at the last slash**, which belongs to neither part. -/
def splitAtLastSlash? (text : List Char) : Option (List Char × List Char) :=
  (splitBefore? '/' text.reverse).map fun (name, owner) =>
    ((owner.drop 1).reverse, name.reverse)

/-- **Read a member** whose descriptor is given beside it. -/
def readMember (path descriptor : List Char) : Except Fault MemberRef :=
  match splitAtLastSlash? path with
  | none => .error (.notMemberPath (String.ofList path))
  | some (owner, name) =>
    .ok ⟨String.ofList owner, String.ofList name, String.ofList descriptor⟩

/-- **Read a method** whose descriptor follows its name. -/
def readMethod (text : String) : Except Fault MemberRef :=
  match splitBefore? '(' text.toList with
  | none => .error (.missingMethodDescriptor text)
  | some (path, descriptor) => readMember path descriptor

end BytecodeAssembler.Source
