import BytecodeAssembler.Text.Extending
import BytecodeAssembler.Text.Unprintable

/-!
# Quoted text

Messages show a text between double quotes. The quote, the backslash and
the usual control characters have short escapes, and any other character
that is unprintable or extends the one before it is written by its code
point, so what is shown is always visible.
-/

namespace BytecodeAssembler.Text

/-- The digits of a code point in base sixteen, in lower case. -/
def hexDigits (n : Nat) : List Char :=
  Nat.toDigits 16 n

/-- The form of one character between quotes. -/
def quoteChar (c : Char) : List Char :=
  match c with
  | '\x00' => ['\\', '0']
  | '\t' => ['\\', 't']
  | '\r' => ['\\', 'r']
  | '\n' => ['\\', 'n']
  | '"' => ['\\', '"']
  | '\\' => ['\\', '\\']
  | c =>
    if isExtending c || isUnprintable c then
      ['\\', 'u', '\x7b'] ++ hexDigits c.toNat ++ ['\x7d']
    else [c]

/-- **A text between double quotes**, every character in its visible
form. -/
def quote (text : String) : String :=
  String.ofList ('"' :: (text.toList.flatMap quoteChar ++ ['"']))

end BytecodeAssembler.Text
