/-!
# Blank characters

A character is blank when Unicode gives it the property `White_Space`.
There are twenty-five such characters, and only six of them are ASCII.
-/

namespace BytecodeAssembler.Text

/-- **The characters that separate words**: the code points with the
property `White_Space`. -/
def isBlank (c : Char) : Bool :=
  let n := c.toNat
  (0x9 ≤ n && n ≤ 0xd) || n == 0x20 || n == 0x85 || n == 0xa0 || n == 0x1680
    || (0x2000 ≤ n && n ≤ 0x200a) || n == 0x2028 || n == 0x2029 || n == 0x202f
    || n == 0x205f || n == 0x3000

/-- The characters without the blanks at either end. -/
def trim (text : List Char) : List Char :=
  ((text.dropWhile isBlank).reverse.dropWhile isBlank).reverse

end BytecodeAssembler.Text
