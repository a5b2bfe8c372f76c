import BytecodeAssembler.Bytes

/-!
# Modified UTF-8

Class files hold text as **modified UTF-8**. The text is first taken apart
into UTF-16 units, so a character beyond the basic plane becomes two
surrogates, and every unit is then written on its own in one, two or three
bytes. The zero unit takes two bytes, so no zero byte ever appears.
-/

namespace BytecodeAssembler.Text

/-- The UTF-16 units of a character: itself in the basic plane, and a high
and a low surrogate beyond it. -/
def utf16Units (c : Char) : List Nat :=
  let n := c.toNat
  if n < 0x10000 then [n]
  else [0xd800 + (n - 0x10000) / 0x400, 0xdc00 + (n - 0x10000) % 0x400]

/-- The bytes of one UTF-16 unit. -/
def unitBytes (unit : Nat) : Bytes :=
  if 0x1 ≤ unit ∧ unit ≤ 0x7f then [UInt8.ofNat unit]
  else if unit ≤ 0x7ff then
    [UInt8.ofNat (0xc0 + unit / 0x40), UInt8.ofNat (0x80 + unit % 0x40)]
  else
    [UInt8.ofNat (0xe0 + unit / 0x1000), UInt8.ofNat (0x80 + unit / 0x40 % 0x40),
      UInt8.ofNat (0x80 + unit % 0x40)]

/-- **The modified UTF-8 form of a text.** -/
def modifiedUtf8 (text : String) : Bytes :=
  text.toList.flatMap fun c => (utf16Units c).flatMap unitBytes

end BytecodeAssembler.Text
