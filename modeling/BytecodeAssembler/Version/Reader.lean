import BytecodeAssembler.Fault.Basic
import BytecodeAssembler.Text.Blank
import BytecodeAssembler.Text.Integer

/-!
# Versions from text

A version is written `major.minor`, or `major` alone for minor version 0.
Blanks around each number are allowed. The major number is judged first,
for being a number and then for its size.
-/

namespace BytecodeAssembler.Version

/-- The text before and after the first point. -/
def splitPoint (text : List Char) : List Char × List Char :=
  match text.dropWhile (· != '.') with
  | [] => (text, ['0'])
  | _ :: rest => (text.takeWhile (· != '.'), rest)

/-- One number of a version, which is part of the given text. -/
def readNumber (text : String) (part : List Char) : Except Fault UInt16 :=
  match Text.readNatural 10 18446744073709551615 (Text.trim part) with
  | .error _ => .error (.malformedVersion text)
  | .ok value =>
    if value ≤ 65535 then .ok (UInt16.ofNat value) else .error (.versionTooLarge text)

/-- **The version that a text spells.** -/
def read (text : String) : Except Fault Version := do
  let (major, minor) := splitPoint text.toList
  let major ← readNumber text major
  let minor ← readNumber text minor
  return ⟨major, minor⟩

end BytecodeAssembler.Version
