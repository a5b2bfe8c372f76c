import BytecodeAssembler.Proofs.Bytes
import BytecodeAssembler.Text.ModifiedUtf8
import Mathlib.Algebra.GroupWithZero.Nat

/-!
# Reading modified UTF-8 back

Modified UTF-8 is read in two steps, as it is written in two. The bytes come
in groups, and the first byte of a group says how long it is and which UTF-16
unit it holds (`readUnit`). The units then make characters, where a high and
a low surrogate make one character together (`joinUnits`). Since no character
is a surrogate itself, the second step finds the same characters again, and
every text is read back from its bytes (`readModifiedUtf8_modifiedUtf8`).

The bytes themselves are neither zero nor above `0xef`, and how many there are
can be said character by character (`modifiedUtf8_lossless`).
-/

namespace BytecodeAssembler.Text

/-! ## Groups of bytes -/

/-- Read a byte that continues a group, and give the six bits it holds. -/
def readContinuation : Reader Nat
  | byte :: rest =>
    if 0x80 ≤ byte.toNat ∧ byte.toNat ≤ 0xbf then some (byte.toNat - 0x80, rest) else none
  | [] => none

/-- **Read a UTF-16 unit.** Neither a zero byte nor a byte above `0xef` starts
one. -/
def readUnit : Reader Nat := readU1.bind fun byte =>
  if 0x01 ≤ byte.toNat ∧ byte.toNat ≤ 0x7f then .pure byte.toNat
  else if 0xc0 ≤ byte.toNat ∧ byte.toNat ≤ 0xdf then
    readContinuation.map fun low => (byte.toNat - 0xc0) * 0x40 + low
  else if 0xe0 ≤ byte.toNat ∧ byte.toNat ≤ 0xef then
    readContinuation.bind fun middle => readContinuation.map fun low =>
      (byte.toNat - 0xe0) * 0x1000 + middle * 0x40 + low
  else fun _ => none

theorem reads_continuation {bits : Nat} (h : bits < 0x40) :
    Reads readContinuation [UInt8.ofNat (0x80 + bits)] bits := by
  intro rest
  have hbyte : (UInt8.ofNat (0x80 + bits)).toNat = 0x80 + bits :=
    UInt8.toNat_ofNat_of_lt' (show 0x80 + bits < 256 by omega)
  show (if _ then _ else _) = _
  rw [hbyte, if_pos (by omega), Nat.add_sub_cancel_left]
  rfl

/-- **A unit is read back from its bytes.** -/
theorem reads_unit {unit : Nat} (h : unit < 0x10000) : Reads readUnit (unitBytes unit) unit := by
  unfold unitBytes
  -- one byte, two or three; the first byte tells the reader which, as the ranges do not meet
  by_cases hone : 0x1 ≤ unit ∧ unit ≤ 0x7f
  · have hbyte : (UInt8.ofNat unit).toNat = unit :=
      UInt8.toNat_ofNat_of_lt' (show unit < 256 by omega)
    rw [if_pos hone]
    refine (reads_u1 _).bind ?_
    rw [hbyte, if_pos hone]
    exact .pure unit
  · rw [if_neg hone]
    by_cases htwo : unit ≤ 0x7ff
    · have hbyte : (UInt8.ofNat (0xc0 + unit / 0x40)).toNat = 0xc0 + unit / 0x40 :=
        UInt8.toNat_ofNat_of_lt' (show 0xc0 + unit / 0x40 < 256 by omega)
      rw [if_pos htwo]
      refine (reads_u1 _).bind ?_
      rw [hbyte, if_neg (by omega), if_pos (by omega)]
      have hlow := (reads_continuation (Nat.mod_lt unit (by decide : 0 < 0x40))).map
        fun low => (0xc0 + unit / 0x40 - 0xc0) * 0x40 + low
      rw [show (0xc0 + unit / 0x40 - 0xc0) * 0x40 + unit % 0x40 = unit by omega] at hlow
      exact hlow
    · have hbyte : (UInt8.ofNat (0xe0 + unit / 0x1000)).toNat = 0xe0 + unit / 0x1000 :=
        UInt8.toNat_ofNat_of_lt' (show 0xe0 + unit / 0x1000 < 256 by omega)
      rw [if_neg htwo]
      refine (reads_u1 _).bind ?_
      rw [hbyte, if_neg (by omega), if_neg (by omega), if_pos (by omega)]
      have hlow := (reads_continuation (Nat.mod_lt unit (by decide : 0 < 0x40))).map
        fun low => (0xe0 + unit / 0x1000 - 0xe0) * 0x1000 + unit / 0x40 % 0x40 * 0x40 + low
      rw [show (0xe0 + unit / 0x1000 - 0xe0) * 0x1000 + unit / 0x40 % 0x40 * 0x40 + unit % 0x40
        = unit by omega] at hlow
      exact (reads_continuation (Nat.mod_lt (unit / 0x40) (by decide : 0 < 0x40))).bind hlow

theorem unitBytes_ne_nil (unit : Nat) : unitBytes unit ≠ [] := by
  unfold unitBytes
  split
  next => exact List.cons_ne_nil _ _
  next => split <;> exact List.cons_ne_nil _ _

/-! ## Surrogates -/

/-- **The characters that UTF-16 units stand for.** A surrogate without its
partner stands for none. -/
def joinUnits : List Nat → Option (List Char)
  | [] => some []
  | unit :: rest =>
    if unit < 0xd800 ∨ 0xdfff < unit then (joinUnits rest).map (Char.ofNat unit :: ·)
    else
      match rest with
      | [] => none
      | low :: rest =>
        if unit < 0xdc00 ∧ 0xdc00 ≤ low ∧ low ≤ 0xdfff then
          (joinUnits rest).map
            (Char.ofNat (0x10000 + (unit - 0xd800) * 0x400 + (low - 0xdc00)) :: ·)
        else none

/-- A character is no surrogate, and its number is below `0x110000`. -/
theorem toNat_char_cases (c : Char) :
    c.toNat < 0xd800 ∨ 0xdfff < c.toNat ∧ c.toNat < 0x110000 := c.valid

/-- **The units of a character make the character again.** -/
theorem joinUnits_utf16Units (c : Char) (rest : List Nat) :
    joinUnits (utf16Units c ++ rest) = (joinUnits rest).map (c :: ·) := by
  have hcases := toNat_char_cases c
  unfold utf16Units
  by_cases hbasic : c.toNat < 0x10000
  · rw [if_pos hbasic]
    show joinUnits (c.toNat :: rest) = _
    rw [joinUnits.eq_def]
    dsimp only
    rw [if_pos (by omega), Char.ofNat_toNat]
  · -- the two surrogates hold the upper and the lower ten bits
    rw [if_neg hbasic]
    show joinUnits (_ :: _ :: rest) = _
    rw [joinUnits.eq_def]
    dsimp only
    rw [if_neg (by omega), if_pos (by omega), Nat.add_sub_cancel_left, Nat.add_sub_cancel_left,
      Nat.add_assoc, Nat.div_add_mod', Nat.add_sub_cancel' (by omega), Char.ofNat_toNat]

theorem joinUnits_flatMap (cs : List Char) : joinUnits (cs.flatMap utf16Units) = some cs := by
  induction cs with
  | nil => rfl
  | cons c cs ih =>
    rw [List.flatMap_cons, joinUnits_utf16Units, ih]
    rfl

theorem lt_of_mem_utf16Units {c : Char} {unit : Nat} (h : unit ∈ utf16Units c) :
    unit < 0x10000 := by
  have hcases := toNat_char_cases c
  unfold utf16Units at h
  by_cases hbasic : c.toNat < 0x10000
  · rw [if_pos hbasic, List.mem_singleton] at h
    omega
  · rw [if_neg hbasic, List.mem_pair] at h
    omega

/-! ## Texts -/

/-- **The text that bytes stand for** in modified UTF-8. -/
def readModifiedUtf8 (bytes : Bytes) : Option String :=
  ((readUnit.all bytes).bind joinUnits).map String.ofList

/-- **A text is read back from its bytes.** -/
theorem readModifiedUtf8_modifiedUtf8 (text : String) :
    readModifiedUtf8 (modifiedUtf8 text) = some text := by
  have hunits : readUnit.all (modifiedUtf8 text) = some (text.toList.flatMap utf16Units) := by
    unfold modifiedUtf8
    rw [← List.flatMap_assoc]
    refine Reads.all_flatMap fun unit hunit => ⟨reads_unit ?_, unitBytes_ne_nil unit⟩
    obtain ⟨c, -, hc⟩ := List.mem_flatMap.1 hunit
    exact lt_of_mem_utf16Units hc
  unfold readModifiedUtf8
  rw [hunits]
  show (joinUnits (text.toList.flatMap utf16Units)).map String.ofList = some text
  rw [joinUnits_flatMap]
  exact congrArg some (String.ofList_toList)

/-! ## The bytes of a text -/

/-- A unit is written without a zero byte and without a byte above `0xef`. -/
theorem toNat_of_mem_unitBytes {unit : Nat} (h : unit < 0x10000) {byte : UInt8}
    (hbyte : byte ∈ unitBytes unit) : 0x01 ≤ byte.toNat ∧ byte.toNat ≤ 0xef := by
  unfold unitBytes at hbyte
  split at hbyte
  next hone =>
    obtain rfl := List.mem_singleton.1 hbyte
    rw [UInt8.toNat_ofNat_of_lt' (show unit < 256 by omega)]
    omega
  next =>
    -- of a longer group only the first byte depends on the size of the unit
    split at hbyte
    next =>
      rcases List.mem_pair.1 hbyte with rfl | rfl
      · rw [UInt8.toNat_ofNat_of_lt' (show 0xc0 + unit / 0x40 < 256 by omega)]
        omega
      · rw [UInt8.toNat_ofNat_of_lt' (show 0x80 + unit % 0x40 < 256 by omega)]
        omega
    next =>
      rcases List.mem_cons.1 hbyte with rfl | hbyte
      · rw [UInt8.toNat_ofNat_of_lt' (show 0xe0 + unit / 0x1000 < 256 by omega)]
        omega
      · rcases List.mem_pair.1 hbyte with rfl | rfl
        · rw [UInt8.toNat_ofNat_of_lt' (show 0x80 + unit / 0x40 % 0x40 < 256 by omega)]
          omega
        · rw [UInt8.toNat_ofNat_of_lt' (show 0x80 + unit % 0x40 < 256 by omega)]
          omega

theorem toNat_of_mem_modifiedUtf8 {text : String} {byte : UInt8}
    (h : byte ∈ modifiedUtf8 text) : 0x01 ≤ byte.toNat ∧ byte.toNat ≤ 0xef := by
  obtain ⟨c, -, hc⟩ := List.mem_flatMap.1 h
  obtain ⟨unit, hunit, hbyte⟩ := List.mem_flatMap.1 hc
  exact toNat_of_mem_unitBytes (lt_of_mem_utf16Units hunit) hbyte

/-- **The number of bytes that a character takes.** -/
def charLength (c : Char) : Nat :=
  if 0x0001 ≤ c.toNat ∧ c.toNat ≤ 0x007f then 1
  else if c.toNat ≤ 0x07ff then 2
  else if c.toNat ≤ 0xffff then 3
  else 6

/-- A unit from `0x800` on takes three bytes. -/
theorem length_unitBytes_of_gt {unit : Nat} (h : 0x7ff < unit) : (unitBytes unit).length = 3 := by
  unfold unitBytes
  rw [if_neg (by omega), if_neg (by omega)]
  rfl

/-- The units of a character take the bytes of the character. -/
theorem length_utf16Units_bytes (c : Char) :
    ((utf16Units c).flatMap unitBytes).length = charLength c := by
  unfold utf16Units charLength
  by_cases hbasic : c.toNat < 0x10000
  · rw [if_pos hbasic, List.flatMap_singleton]
    by_cases hlong : 0x7ff < c.toNat
    · rw [length_unitBytes_of_gt hlong, if_neg (by omega), if_neg (by omega), if_pos (by omega)]
    · unfold unitBytes
      split
      next => rfl
      next =>
        rw [if_pos (by omega), if_pos (by omega)]
        rfl
  · -- both surrogates are large units
    rw [if_neg hbasic, List.flatMap_cons, List.flatMap_singleton, List.length_append,
      length_unitBytes_of_gt (by omega), length_unitBytes_of_gt (by omega), if_neg (by omega),
      if_neg (by omega), if_neg (by omega)]

theorem length_modifiedUtf8 (text : String) :
    (modifiedUtf8 text).length = (text.toList.map charLength).sum := by
  unfold modifiedUtf8
  rw [List.length_flatMap]
  exact congrArg List.sum (List.map_congr_left fun c _ => length_utf16Units_bytes c)

/-- **Modified UTF-8 loses nothing.** Every text is read back from its bytes.
None of them is zero or above `0xef`, and their number is what the characters
take one by one: one byte up to U+007F, two bytes up to U+07FF and for U+0000,
three bytes in the rest of the basic plane, and six beyond it. -/
theorem modifiedUtf8_lossless (text : String) :
    readModifiedUtf8 (modifiedUtf8 text) = some text
      ∧ (∀ byte ∈ modifiedUtf8 text, byte ≠ 0x00 ∧ byte ≤ 0xef)
      ∧ (modifiedUtf8 text).length = (text.toList.map charLength).sum := by
  refine ⟨readModifiedUtf8_modifiedUtf8 text, fun byte hbyte => ?_, length_modifiedUtf8 text⟩
  obtain ⟨hlow, hhigh⟩ := toNat_of_mem_modifiedUtf8 hbyte
  refine ⟨?_, UInt8.le_iff_toNat_le.2 hhigh⟩
  rintro rfl
  exact absurd hlow (by decide)

end BytecodeAssembler.Text
