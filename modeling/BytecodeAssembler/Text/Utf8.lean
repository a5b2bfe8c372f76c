import BytecodeAssembler.Bytes

/-!
# UTF-8

Source files are decoded byte by byte. Between characters a byte either
stands for itself or leads a character of two to four bytes; inside a
character the next byte has to lie within bounds, which for the second
byte depend on the first: that rules out overlong forms, surrogates and
code points beyond the last one. A refused byte is reported with the
place where its character began and the number of bytes that were
acceptable up to there.
-/

namespace BytecodeAssembler.Text

/-- Why bytes are not a UTF-8 text. -/
inductive Utf8Fault where
  /-- The `length` bytes from `index` on start no character. -/
  | invalid (index length : Nat)
  /-- The bytes end inside the character that begins at `index`. -/
  | incomplete (index : Nat)
  deriving DecidableEq, Repr

/-- The fault as it is shown. -/
def Utf8Fault.message : Utf8Fault → String
  | .invalid index length => s!"invalid utf-8 sequence of {length} bytes from index {index}"
  | .incomplete index => s!"incomplete utf-8 byte sequence from index {index}"

/-- A character begun and not yet complete. -/
structure PartialChar where
  /-- Where its first byte stands. -/
  start : Nat
  /-- How many of its bytes have been taken. -/
  taken : Nat
  /-- How many bytes are still owed. -/
  owed : Nat
  /-- The least byte that may come next. -/
  low : UInt8
  /-- The greatest byte that may come next. -/
  high : UInt8
  /-- The bits taken so far. -/
  value : Nat
  deriving Repr

/-- The character that a byte above the ASCII range leads, if any. -/
def leadChar? (index : Nat) (byte : UInt8) : Option PartialChar :=
  let n := byte.toNat
  if 0xc2 ≤ n ∧ n ≤ 0xdf then some ⟨index, 1, 1, 0x80, 0xbf, n % 0x20⟩
  else if n = 0xe0 then some ⟨index, 1, 2, 0xa0, 0xbf, 0⟩
  else if n = 0xed then some ⟨index, 1, 2, 0x80, 0x9f, 0xd⟩
  else if 0xe1 ≤ n ∧ n ≤ 0xef then some ⟨index, 1, 2, 0x80, 0xbf, n % 0x10⟩
  else if n = 0xf0 then some ⟨index, 1, 3, 0x90, 0xbf, 0⟩
  else if 0xf1 ≤ n ∧ n ≤ 0xf3 then some ⟨index, 1, 3, 0x80, 0xbf, n % 0x8⟩
  else if n = 0xf4 then some ⟨index, 1, 3, 0x80, 0x8f, 4⟩
  else none

/-- Decode the bytes from `index` on. `begun` is the character they
continue, if any, and `rev` holds the characters before it, last one
first. -/
def decodeFrom : Bytes → Nat → Option PartialChar → List Char →
    Except Utf8Fault (List Char)
  | [], _, none, rev => .ok rev.reverse
  | [], _, some begun, _ => .error (.incomplete begun.start)
  | byte :: rest, index, none, rev =>
    if byte < 0x80 then
      decodeFrom rest (index + 1) none (Char.ofNat byte.toNat :: rev)
    else
      match leadChar? index byte with
      | none => .error (.invalid index 1)
      | some begun => decodeFrom rest (index + 1) (some begun) rev
  | byte :: rest, index, some begun, rev =>
    if begun.low ≤ byte ∧ byte ≤ begun.high then
      let value := begun.value * 0x40 + byte.toNat % 0x40
      if begun.owed ≤ 1 then
        decodeFrom rest (index + 1) none (Char.ofNat value :: rev)
      else
        decodeFrom rest (index + 1)
          (some ⟨begun.start, begun.taken + 1, begun.owed - 1, 0x80, 0xbf, value⟩) rev
    else .error (.invalid begun.start begun.taken)

/-- **The text that bytes encode in UTF-8.** -/
def decodeUtf8 (bytes : Bytes) : Except Utf8Fault String :=
  (decodeFrom bytes 0 none []).map String.ofList

/-- **The text that bytes encode in Latin-1**: every byte is the code point
of one character. -/
def decodeLatin1 (bytes : Bytes) : String :=
  String.ofList (bytes.map fun byte => Char.ofNat byte.toNat)

end BytecodeAssembler.Text
