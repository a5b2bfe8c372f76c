/-!
# Integers of bounded size

An integer is read digit by digit from the left. The reading stops at the
first thing that is wrong, so a text that runs over the bounds before it
reaches a character that is no digit counts as too large rather than as
malformed.
-/

namespace BytecodeAssembler.Text

/-- What can be wrong with the text of an integer. -/
inductive IntegerFault where
  /-- No digits, or a character that is no digit. -/
  | malformed
  /-- The value leaves the bounds. -/
  | outOfRange
  deriving DecidableEq, Repr

/-- The value of a digit in a base up to sixteen. -/
def digitValue? (base : Nat) (c : Char) : Option Nat :=
  let value :=
    if '0' ≤ c && c ≤ '9' then c.toNat - '0'.toNat
    else if 'a' ≤ c && c ≤ 'f' then c.toNat - 'a'.toNat + 10
    else if 'A' ≤ c && c ≤ 'F' then c.toNat - 'A'.toNat + 10
    else base
  if value < base then some value else none

/-- Read the remaining digits after the value `acc`, which may not pass
`bound`. -/
def readDigits (base bound : Nat) : List Char → Nat → Except IntegerFault Nat
  | [], acc => .ok acc
  | c :: rest, acc =>
    match digitValue? base c with
    | none => .error .malformed
    | some digit =>
      let next := acc * base + digit
      if next ≤ bound then readDigits base bound rest next else .error .outOfRange

/-- **An unsigned integer** of at most `bound`: an optional plus sign and
at least one digit. -/
def readNatural (base bound : Nat) : List Char → Except IntegerFault Nat
  | [] | ['+'] => .error .malformed
  | '+' :: digits => readDigits base bound digits 0
  | digits => readDigits base bound digits 0

/-- **A signed integer** from `-low` to `high`: an optional sign and at
least one digit. -/
def readSigned (base low high : Nat) : List Char → Except IntegerFault Int
  | [] | ['+'] | ['-'] => .error .malformed
  | '+' :: digits => (readDigits base high digits 0).map Int.ofNat
  | '-' :: digits => (readDigits base low digits 0).map fun n => -Int.ofNat n
  | digits => (readDigits base high digits 0).map Int.ofNat

/-- A signed integer of 64 bits in the given base. -/
def readInt64 (base : Nat) (text : List Char) : Except IntegerFault Int64 :=
  (readSigned base 9223372036854775808 9223372036854775807 text).map Int64.ofInt

end BytecodeAssembler.Text
