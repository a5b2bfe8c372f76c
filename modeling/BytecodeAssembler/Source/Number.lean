import BytecodeAssembler.Fault.Basic
import BytecodeAssembler.Number.Decimal
import BytecodeAssembler.Source.Token
import BytecodeAssembler.Text.Integer

/-!
# Numbers of the source

Integers are decimal or, behind `0x`, hexadecimal. A word is a number when
it begins like one; it is then an integer if it reads as one, else a
floating-point number, else at fault.
-/

namespace BytecodeAssembler.Source

/-- The digits of an integer in its base: behind `0x` it is sixteen. -/
def readBased : List Char → Except Text.IntegerFault Int64
  | '0' :: 'x' :: digits => Text.readInt64 16 digits
  | '0' :: 'X' :: digits => Text.readInt64 16 digits
  | digits => Text.readInt64 10 digits

/-- The integer of a text: a sign, then the digits. -/
def readSignedInteger : List Char → Except Text.IntegerFault Int64
  | '-' :: rest => (readBased rest).map (- ·)
  | '+' :: rest => readBased rest
  | rest => readBased rest

/-- **Read an integer.** -/
def readInteger (text : String) : Except Fault Int64 :=
  match readSignedInteger text.toList with
  | .ok value => .ok value
  | .error .outOfRange => .error (.integerTooLarge text)
  | .error .malformed => .error (.notInteger text)

/-- Whether a word begins like a number. -/
def looksNumeric : List Char → Bool
  | [] => false
  | c :: _ => c.isDigit || c == '-' || c == '+' || c == '.'

/-- **Read a number**, if the word begins like one. An integer that is too
large is at fault and not taken for a floating-point number. -/
def readNumber? (text : String) : Except Fault (Option Literal) :=
  if looksNumeric text.toList then
    match readSignedInteger text.toList with
    | .ok value => .ok (some (.int value))
    | .error .outOfRange => .error (.integerTooLarge text)
    | .error .malformed =>
      match Number.readBinary64? text.toList with
      | some value => .ok (some (.float value))
      | none => .error (.malformedNumber text)
  else .ok none

/-- The value of a token: of a quoted string its text, of a word its
number, if it begins like one. -/
def readValue? : Token → Except Fault (Option Literal)
  | .quoted text => .ok (some (.string text))
  | .word text => readNumber? text

/-- **Read the value of a field.** -/
def readLiteral (token : Token) : Except Fault Literal := do
  match ← readValue? token with
  | some value => .ok value
  | none => .error (.notFieldValue token.text)

end BytecodeAssembler.Source
