import BytecodeAssembler.Proofs.Assembler.PendingInstruction
import BytecodeAssembler.Proofs.Source.Tokens
import BytecodeAssembler.Proofs.Text.Integer
import BytecodeAssembler.Source.Reading

/-!
# Integers of the source

An integer is written as digits, perhaps behind `0x`, perhaps behind a sign.
That is what a text **denotes** (`Denotes`), whatever reads it. The reader takes
the sign off, then the mark of the radix, and hands what is left to a reader of
64 bits. This has two consequences.

The number is read before its sign is applied, so it is bounded as a positive
one. Every integer of 64 bits can be written in either radix, except the
smallest one, which is refused as too large (`readInteger_texts`).

And the reader of 64 bits takes a sign of its own. So there are texts with two
signs that are read as integers (`readInteger_eq_ok_iff`), and they are the only
ones that denote none (`readInteger_denotes_iff`).
-/

namespace BytecodeAssembler.Source

open Text (Sign Numeral)

/-! ## What texts denote -/

/-- **How the radix of an integer is marked.** -/
inductive Radix where
  | decimal
  | lowerHex
  | upperHex
  deriving DecidableEq

namespace Radix

def base : Radix → Nat
  | decimal => 10
  | lowerHex | upperHex => 16

def mark : Radix → List Char
  | decimal => []
  | lowerHex => ['0', 'x']
  | upperHex => ['0', 'X']

theorem base_le (r : Radix) : r.base ≤ 16 := by
  cases r <;> decide

end Radix

/-- **The text denotes an integer**: it is a sign or none, the mark of a radix,
and digits. -/
def Denotes (text : List Char) (value : Int) : Prop :=
  ∃ (sign : Sign) (radix : Radix) (digits : List Char) (n : Nat),
    text = sign.chars ++ (radix.mark ++ digits) ∧ Numeral radix.base digits n
      ∧ value = sign.apply n

/-- **A text that is read as an integer.** Behind the mark of the radix there
may be a sign once more. -/
structure Spelling where
  sign : Sign
  radix : Radix
  /-- The sign in front of the digits. -/
  inner : Sign
  digits : List Char
  /-- What the digits denote. -/
  number : Nat
  numeral : Numeral radix.base digits number
  /-- The number is read with the sign in front of the digits. -/
  bounded : number ≤ inner.limit
  /-- The first sign of a text is not the one in front of the digits. -/
  first : radix = .decimal → sign = .none → inner = .none

namespace Spelling

def chars (s : Spelling) : List Char :=
  s.sign.chars ++ (s.radix.mark ++ (s.inner.chars ++ s.digits))

/-- The integer that both signs make of the number. -/
def value (s : Spelling) : Int := s.sign.apply (s.inner.apply s.number)

end Spelling

/-! ## Reading -/

variable {text : List Char} {v : Int64} {r : Radix} {digits : List Char} {n : Nat}

/-- Neither digits nor signs look like the mark of a radix. -/
theorem not_mark_of_mem {s : Sign} {c : Char} (h : Numeral r.base digits n)
    (hc : c ∈ s.chars ++ digits) : c ≠ 'x' ∧ c ≠ 'X' := by
  rcases List.mem_append.1 hc with hsign | hdigit
  · cases s with
    | none => cases hsign
    | plus | minus =>
      obtain rfl := List.mem_singleton.1 hsign
      decide
  · obtain ⟨k, hk⟩ := h.isDigit hdigit
    simpa using hk.all (P := fun c => c != 'x' && c != 'X') r.base_le rfl

/-- A text without a mark is decimal. -/
theorem readBased_unmarked (h : ∀ c ∈ text, c ≠ 'x' ∧ c ≠ 'X') :
    readBased text = Text.readInt64 10 text := by
  unfold readBased
  split
  next => exact absurd rfl (h 'x' (by simp)).1
  next => exact absurd rfl (h 'X' (by simp)).2
  next => rfl

/-- **The mark of the radix is taken off.** -/
theorem readBased_mark (s : Sign) (h : Numeral r.base digits n) :
    readBased (r.mark ++ (s.chars ++ digits)) = Text.readInt64 r.base (s.chars ++ digits) := by
  cases r with
  | lowerHex => rfl
  | upperHex => rfl
  | decimal => exact readBased_unmarked fun c hc => not_mark_of_mem h hc

theorem exists_mark_of_readBased (h : readBased text = .ok v) :
    ∃ (r : Radix) (rest : List Char), text = r.mark ++ rest
      ∧ Text.readInt64 r.base rest = .ok v := by
  unfold readBased at h
  split at h
  next rest => exact ⟨.lowerHex, rest, rfl, h⟩
  next rest => exact ⟨.upperHex, rest, rfl, h⟩
  next => exact ⟨.decimal, text, rfl, h⟩

/-- A sign is applied to 64 bits as it is to an integer. -/
theorem ofInt_apply_toInt (s : Sign) (value : Int) :
    Int64.ofInt (s.apply (Int64.ofInt value).toInt) = Int64.ofInt (s.apply value) := by
  cases s with
  | none | plus => exact Int64.ofInt_toInt _
  | minus =>
    show Int64.ofInt (-(Int64.ofInt value).toInt) = Int64.ofInt (-value)
    rw [Int64.ofInt_neg, Int64.ofInt_neg, Int64.ofInt_toInt]

/-- **The sign is taken off** and applied to what is read. Without one the text
may not begin like one. -/
theorem readSignedInteger_chars (s : Sign) {rest : List Char}
    (h : s = .none → ∃ c tail, rest = c :: tail ∧ c ≠ '+' ∧ c ≠ '-') :
    readSignedInteger (s.chars ++ rest)
      = (readBased rest).map fun w => Int64.ofInt (s.apply w.toInt) := by
  have hsame : (readBased rest).map (fun w => Int64.ofInt w.toInt) = readBased rest := by
    simp only [Int64.ofInt_toInt]
    exact congrFun Except.map_id _
  cases s with
  | none =>
    obtain ⟨c, tail, rfl, hplus, hminus⟩ := h rfl
    refine Eq.trans ?_ hsame.symm
    rw [Sign.chars, List.nil_append, readSignedInteger]
    · simp [hminus]
    · simp [hplus]
  | plus => exact hsame.symm
  | minus =>
    simp only [Sign.apply, Int64.ofInt_neg, Int64.ofInt_toInt]
    rfl

/-- **A text with a numeral is read**, unless the number is too large for the sign
in front of it. -/
theorem readSignedInteger_of_numeral (sign inner : Sign)
    (hfirst : r = .decimal → sign = .none → inner = .none) (h : Numeral r.base digits n) :
    readSignedInteger (sign.chars ++ (r.mark ++ (inner.chars ++ digits)))
      = if n ≤ inner.limit then .ok (Int64.ofInt (sign.apply (inner.apply n)))
        else .error .outOfRange := by
  rw [readSignedInteger_chars, readBased_mark inner h, Text.readInt64_of_numeral r.base_le inner h]
  · split
    next => exact congrArg Except.ok (ofInt_apply_toInt sign _)
    next => rfl
  · intro hsign
    cases r with
    | lowerHex | upperHex => exact ⟨'0', _, rfl, by decide⟩
    | decimal =>
      rw [hfirst rfl hsign]
      exact h.exists_cons (by decide)

/-- **Whatever is read is spelled** with at most two signs. -/
theorem exists_spelling_of_readSignedInteger (h : readSignedInteger text = .ok v) :
    ∃ s : Spelling, text = s.chars ∧ v = Int64.ofInt s.value := by
  have hsign : ∃ (sign : Sign) (rest : List Char) (w : Int64), text = sign.chars ++ rest
      ∧ readBased rest = .ok w ∧ v = Int64.ofInt (sign.apply w.toInt)
      ∧ (sign = .none → ∀ tail, text ≠ '+' :: tail ∧ text ≠ '-' :: tail) := by
    unfold readSignedInteger at h
    split at h
    next rest =>
      cases hread : readBased rest with
      | error fault =>
        rw [hread] at h
        cases h
      | ok w =>
        rw [hread] at h
        refine ⟨.minus, rest, w, rfl, hread, ?_, nofun⟩
        rw [Sign.apply, Int64.ofInt_neg, Int64.ofInt_toInt]
        exact (Except.ok.inj h).symm
    next rest => exact ⟨.plus, rest, v, rfl, h, (Int64.ofInt_toInt v).symm, nofun⟩
    next hminus hplus =>
      exact ⟨.none, text, v, rfl, h, (Int64.ofInt_toInt v).symm,
        fun _ tail => ⟨hplus tail, hminus tail⟩⟩
  obtain ⟨sign, rest, w, rfl, hread, rfl, hnone⟩ := hsign
  obtain ⟨r, rest, rfl, hmarked⟩ := exists_mark_of_readBased hread
  obtain ⟨inner, digits, n, rfl, hnumeral, hbounded, rfl⟩ :=
    Text.exists_numeral_of_readInt64 r.base_le hmarked
  refine ⟨⟨sign, r, inner, digits, n, hnumeral, hbounded, ?_⟩, rfl, ofInt_apply_toInt sign _⟩
  -- a sign at the very beginning was taken off as the first one
  rintro rfl rfl
  obtain ⟨hplus, hminus⟩ := hnone rfl digits
  cases inner with
  | none => rfl
  | plus => exact absurd rfl hplus
  | minus => exact absurd rfl hminus

/-- Reading an integer fails with the whole text in hand. -/
theorem readInteger_eq_ok_iff_signed {text : String} :
    readInteger text = .ok v ↔ readSignedInteger text.toList = .ok v := by
  unfold readInteger
  cases readSignedInteger text.toList with
  | ok w => simp
  | error fault => cases fault <;> simp

/-- **The texts that are read as integers**, and what they are read as. -/
theorem readInteger_eq_ok_iff {text : String} :
    readInteger text = .ok v ↔ ∃ s : Spelling, text.toList = s.chars ∧ v = Int64.ofInt s.value := by
  rw [readInteger_eq_ok_iff_signed]
  refine ⟨exists_spelling_of_readSignedInteger, ?_⟩
  rintro ⟨s, htext, rfl⟩
  rw [htext, Spelling.chars, readSignedInteger_of_numeral s.sign s.inner s.first s.numeral,
    if_pos s.bounded]
  rfl

/-! ## Second signs -/

theorem mem_of_mem_tail_chars {s : Sign} {rest : List Char} {c : Char}
    (h : c ∈ (s.chars ++ rest).tail) : c ∈ rest := by
  cases s with
  | none => exact List.mem_of_mem_tail h
  | plus | minus => exact h

/-- **What denotes an integer has a sign in front only.** -/
theorem Denotes.not_sign_of_mem_tail {value : Int} {c : Char} (h : Denotes text value)
    (hc : c ∈ text.tail) : c ≠ '+' ∧ c ≠ '-' := by
  obtain ⟨sign, r, digits, n, rfl, hnumeral, -⟩ := h
  rcases List.mem_append.1 (mem_of_mem_tail_chars hc) with hmark | hdigit
  · have hall : (r.mark.all fun c => c != '+' && c != '-') = true := by
      cases r <;> rfl
    simpa using List.all_eq_true.1 hall c hmark
  · obtain ⟨k, hk⟩ := hnumeral.isDigit hdigit
    exact hk.ne_sign r.base_le

namespace Spelling

/-- A second sign is not the first character. -/
theorem exists_sign_mem_tail (s : Spelling) (h : s.inner ≠ .none) :
    ∃ c ∈ s.chars.tail, c = '+' ∨ c = '-' := by
  obtain ⟨c, hinner, hc⟩ : ∃ c, s.inner.chars = [c] ∧ (c = '+' ∨ c = '-') := by
    cases hs : s.inner with
    | none => exact absurd hs h
    | plus => exact ⟨'+', rfl, .inl rfl⟩
    | minus => exact ⟨'-', rfl, .inr rfl⟩
  obtain ⟨first, before, hbefore⟩ :
      ∃ first before, s.sign.chars ++ s.radix.mark = first :: before := by
    cases hsign : s.sign with
    | plus | minus => exact ⟨_, _, rfl⟩
    | none =>
      cases hradix : s.radix with
      | lowerHex | upperHex => exact ⟨_, _, rfl⟩
      | decimal => exact absurd (s.first hradix hsign) h
  refine ⟨c, ?_, hc⟩
  rw [chars, ← List.append_assoc, hbefore, hinner]
  simp

/-- With one sign, the integer that is read is the one that is written. -/
theorem denotes_of_inner_eq_none (s : Spelling) (h : s.inner = .none) :
    Denotes s.chars (Int64.ofInt s.value).toInt := by
  refine ⟨s.sign, s.radix, s.digits, s.number, ?_, s.numeral, ?_⟩
  · rw [chars, h]
    rfl
  · have hbounded := s.bounded
    rw [h] at hbounded
    change s.number ≤ 9223372036854775807 at hbounded
    rw [value, h]
    cases s.sign with
    | none | plus =>
      simp only [Sign.apply]
      rw [Int64.toInt_ofInt_of_le (by omega) (by omega)]
    | minus =>
      simp only [Sign.apply]
      rw [Int64.toInt_ofInt_of_le (by omega) (by omega)]

end Spelling

/-- **A text with two signs is read as an integer and denotes none.** The texts
that are read are the spellings, and what is read is what the signs make of the
number, in 64 bits. It is the integer that the text denotes exactly if there is no
sign in front of the digits but the one the text begins with. -/
theorem readInteger_denotes_iff (text : String) (v : Int64) :
    (readInteger text = .ok v
        ↔ ∃ s : Spelling, text.toList = s.chars ∧ v = Int64.ofInt s.value)
      ∧ ∀ s : Spelling, text.toList = s.chars → v = Int64.ofInt s.value →
        (Denotes text.toList v.toInt ↔ s.inner = .none) := by
  refine ⟨readInteger_eq_ok_iff, fun s htext hv => ⟨fun hdenotes => ?_, fun hinner => ?_⟩⟩
  · by_contra hinner
    obtain ⟨c, hc, hsign⟩ := s.exists_sign_mem_tail hinner
    obtain ⟨hplus, hminus⟩ := hdenotes.not_sign_of_mem_tail (htext ▸ hc)
    exact hsign.elim hplus hminus
  · rw [htext, hv]
    exact s.denotes_of_inner_eq_none hinner

/-- Minus thirty-one in base sixteen, with digits in either case. -/
def minusThirtyOne : Spelling where
  sign := .minus
  radix := .upperHex
  inner := .none
  digits := ['1', 'f']
  number := 31
  numeral := .concat (n := 1) (k := 15) (.digit ⟨by decide, .inl rfl⟩) ⟨by decide, .inl rfl⟩
  bounded := by decide
  first := nofun

theorem readInteger_denotes_iff_minusThirtyOne :
    readInteger "-0X1f" = .ok (-31) ∧ Denotes "-0X1f".toList (-31) := by
  obtain ⟨hread, hdenotes⟩ := readInteger_denotes_iff "-0X1f" (-31)
  exact ⟨hread.2 ⟨minusThirtyOne, rfl, rfl⟩, (hdenotes minusThirtyOne rfl rfl).2 rfl⟩

/-- **Two minus signs are taken for a plus.** -/
theorem readInteger_twoSigns :
    readInteger "--5" = .ok 5 ∧ ∀ value, ¬Denotes "--5".toList value := by
  refine ⟨rfl, fun value hdenotes => ?_⟩
  exact (hdenotes.not_sign_of_mem_tail (c := '-') (by decide)).2 rfl

/-! ## Integers as they are written -/

/-- The sign of an integer, if it needs one. -/
def signOf (value : Int) : Sign := if value < 0 then .minus else .none

/-- **An integer as it is written** in a radix. -/
def written (r : Radix) (value : Int) : String :=
  String.ofList ((signOf value).chars ++ (r.mark ++ r.base.toDigits value.natAbs))

theorem denotes_written (r : Radix) (value : Int) : Denotes (written r value).toList value := by
  refine ⟨signOf value, r, r.base.toDigits value.natAbs, value.natAbs, String.toList_ofList,
    Text.numeral_toDigits (by cases r <;> decide) _, ?_⟩
  unfold signOf
  split
  next hneg =>
    simp only [Sign.apply]
    omega
  next hpos =>
    simp only [Sign.apply]
    omega

/-- Decimal is how integers are shown. -/
theorem written_decimal (value : Int) : written .decimal value = toString value := by
  refine String.toList_inj.1 ?_
  rw [written, String.toList_ofList, Int.toString_eq_repr]
  cases value with
  | ofNat m => exact Nat.toList_repr.symm
  | negSucc m =>
    have hneg : signOf (Int.negSucc m) = .minus := if_pos (Int.negSucc_lt_zero m)
    rw [hneg]
    show '-' :: Nat.toDigits 10 (m + 1) = ("-" ++ (m + 1).repr).toList
    rw [String.toList_append, Nat.toList_repr]
    rfl

/-- **What denotes an integer is read as that integer**, unless its number is too
large to be positive. -/
theorem readInteger_of_denotes {text : String} {value : Int} (h : Denotes text.toList value) :
    readInteger text
      = if value.natAbs ≤ 9223372036854775807 then .ok (Int64.ofInt value)
        else .error (.integerTooLarge text) := by
  obtain ⟨sign, r, digits, n, htext, hnumeral, rfl⟩ := h
  have hread := readSignedInteger_of_numeral sign .none (fun _ _ => rfl) hnumeral
  have hnumber : (sign.apply n).natAbs = n := by
    cases sign <;> simp [Sign.apply]
  rw [hnumber]
  unfold readInteger
  rw [htext]
  change readSignedInteger (sign.chars ++ (r.mark ++ digits)) = _ at hread
  rw [hread]
  by_cases hle : n ≤ 9223372036854775807
  · rw [if_pos hle, if_pos (show n ≤ Sign.none.limit from hle)]
    rfl
  · rw [if_neg hle, if_neg (show ¬n ≤ Sign.none.limit from hle)]

/-- **Only the smallest integer of 64 bits is too large.** -/
theorem readInteger_of_denotes_int64 {text : String} (h : Denotes text.toList v.toInt) :
    readInteger text
      = if v = Int64.minValue then .error (.integerTooLarge text) else .ok v := by
  have hlow := v.le_toInt
  have hhigh := v.toInt_lt
  have hsmallest : v = Int64.minValue ↔ v.toInt = -2 ^ 63 := by
    rw [← Int64.toInt_inj, Int64.toInt_minValue]
  rw [readInteger_of_denotes h, Int64.ofInt_toInt]
  by_cases hmin : v = Int64.minValue
  · have hvalue := hsmallest.1 hmin
    rw [if_pos hmin, if_neg (by omega)]
  · have hvalue := mt hsmallest.2 hmin
    rw [if_neg hmin, if_pos (by omega)]

/-- The smallest integer with a sign in front of its sign. -/
def smallest : Spelling where
  sign := .plus
  radix := .decimal
  inner := .minus
  digits := Nat.toDigits 10 9223372036854775808
  number := 9223372036854775808
  numeral := Text.numeral_toDigits (by decide) _
  bounded := Nat.le_refl _
  first := nofun

/-- **Every integer of 64 bits is read off some text.** -/
theorem exists_readInteger (v : Int64) : ∃ text, readInteger text = .ok v := by
  by_cases hmin : v = Int64.minValue
  · refine ⟨String.ofList smallest.chars, readInteger_eq_ok_iff.2 ⟨smallest, ?_, ?_⟩⟩
    · exact String.toList_ofList
    · rw [hmin]
      rfl
  · refine ⟨written .decimal v.toInt, ?_⟩
    rw [readInteger_of_denotes_int64 (denotes_written .decimal v.toInt), if_neg hmin]

/-! ## Lines that load a constant -/

/-- **The line loads a `long`**: outside of frames and switches, `ldc2_w` and the
text behind it emit the instruction with that constant. -/
structure LoadsLong (text : String) (v : Int64) : Prop where
  reads : ∀ r : Reading, r.frame = none → r.switch = none →
    r.readLine ("ldc2_w " ++ text).toList
      = ({ r with line := r.line + 1 }.run (.line (r.line + 1))).run (.emit "ldc2_w" (.int v))
  instruction : ∀ t, Directive.instruction? t (.emit "ldc2_w" (.int v))
    = some ⟨⟨"ldc2_w", 0x14, .loadTwo⟩, .constant (.long v)⟩

namespace Spelling

/-- What holds of each character of an integer holds of a character of one. -/
theorem all (s : Spelling) {P : Char → Bool} {c : Char} (hc : c ∈ s.chars)
    (hmarks : "+-0xX".toList.all P = true)
    (hdigits : "0123456789abcdefABCDEF".toList.all P = true) : P c = true := by
  have hsign (sign : Sign) (h : c ∈ sign.chars) : P c = true := by
    refine List.all_eq_true.1 hmarks c ?_
    cases sign with
    | none => cases h
    | plus | minus =>
      obtain rfl := List.mem_singleton.1 h
      decide
  have hmark (radix : Radix) (h : c ∈ radix.mark) : P c = true := by
    refine List.all_eq_true.1 hmarks c ?_
    cases radix with
    | decimal => cases h
    | lowerHex | upperHex =>
      rcases List.mem_pair.1 h with rfl | rfl <;> decide
  rcases List.mem_append.1 hc with h | hrest
  · exact hsign s.sign h
  · rcases List.mem_append.1 hrest with h | hrest
    · exact hmark s.radix h
    · rcases List.mem_append.1 hrest with h | h
      · exact hsign s.inner h
      · obtain ⟨k, hk⟩ := s.numeral.isDigit h
        exact hk.all s.radix.base_le hdigits

theorem looksNumeric_chars (s : Spelling) : looksNumeric s.chars = true := by
  unfold chars
  cases hsign : s.sign with
  | plus | minus => rfl
  | none =>
    cases hradix : s.radix with
    | lowerHex | upperHex => rfl
    | decimal =>
      obtain ⟨c, rest, hdigits, -⟩ := s.numeral.exists_cons s.radix.base_le
      obtain ⟨k, hk⟩ := s.numeral.isDigit (hdigits ▸ List.mem_cons_self)
      rw [hradix] at hk
      rw [s.first hradix hsign, hdigits]
      show (c.isDigit || c == '-' || c == '+' || c == '.') = true
      rw [hk.isDigit_ten]
      rfl

end Spelling

/-- An integer is one word. -/
theorem Spelling.isWord_chars (s : Spelling) : IsWord s.chars := by
  have hplain (c : Char) (hc : c ∈ s.chars) :
      (Text.isBlank c = false ∧ c ≠ ';') ∧ c ≠ '"' := by
    simpa using s.all (P := fun c => !Text.isBlank c && c != ';' && c != '"') hc rfl rfl
  refine ⟨?_, fun c hc => (hplain c hc).1.1, fun h => ?_, fun h => ?_⟩
  · intro hnil
    have hnumeric := s.looksNumeric_chars
    rw [hnil] at hnumeric
    cases hnumeric
  · exact (hplain ';' (List.mem_of_head? h)).1.2 rfl
  · exact (hplain '"' (List.mem_of_head? h)).2 rfl

/-- **Every text that is read as an integer can be loaded.** -/
theorem loadsLong_of_readInteger {text : String} (h : readInteger text = .ok v) :
    LoadsLong text v := by
  have hsigned := readInteger_eq_ok_iff_signed.1 h
  obtain ⟨s, htext, -⟩ := readInteger_eq_ok_iff.1 h
  -- a spelling is one word, so the line has two
  have htokens : tokens ("ldc2_w " ++ text).toList = .ok [.word "ldc2_w", .word text] := by
    have hfront : Holds "ldc2_w ".toList [.word "ldc2_w"] :=
      Holds.nil.word (show IsWord "ldc2_w".toList by decide) (rfl : Text.isBlank ' ' = true)
    have hlexes := Lexes.lastWord hfront s.isWord_chars
    rwa [← htext, ← String.toList_append, String.ofList_toList, lexes_iff] at hlexes
  have hnumber : readNumber? text = .ok (some (.int v)) := by
    rw [readNumber?, htext, if_pos s.looksNumeric_chars, ← htext, hsigned]
  have hcommand : readCommand "ldc2_w" [.word text]
      = .ok (.directive (.emit "ldc2_w" (.int v))) := by
    show (fun argument => Command.directive (.emit "ldc2_w" argument))
      <$> readWordOrValue (.word text) = _
    rw [readWordOrValue, readValue?, hnumber]
    rfl
  refine ⟨fun r hframe hswitch => ?_, fun t => rfl⟩
  simp only [Reading.readLine, htokens, Reading.readTokens, Reading.run, hswitch]
  simp only [Reading.statement, Token.asWord, hframe, hcommand]
  rfl

/-- **Every integer of 64 bits but the smallest is read as it is written**, in
decimal and in either form of hexadecimal. The smallest one is refused as too
large. All of them can be loaded nevertheless, since with a second sign the
smallest one is read too. -/
theorem readInteger_texts (v : Int64) :
    (∀ r : Radix, readInteger (written r v.toInt)
        = if v = Int64.minValue then .error (.integerTooLarge (written r v.toInt)) else .ok v)
      ∧ written .decimal v.toInt = toString v
      ∧ (∀ text, readInteger text = .ok v → LoadsLong text v)
      ∧ ∃ text, readInteger text = .ok v :=
  ⟨fun r => readInteger_of_denotes_int64 (denotes_written r v.toInt), written_decimal v.toInt,
    fun _ => loadsLong_of_readInteger, exists_readInteger v⟩

theorem readInteger_texts_minus :
    readInteger "-255" = .ok (-255) ∧ readInteger "-0xff" = .ok (-255)
      ∧ LoadsLong "-0xff" (-255) := by
  obtain ⟨hread, -, hloads, -⟩ := readInteger_texts (-255)
  exact ⟨hread .decimal, hread .lowerHex, hloads "-0xff" (hread .lowerHex)⟩

/-- **The smallest integer is refused** in either radix. -/
theorem readInteger_smallest :
    toString Int64.minValue = "-9223372036854775808"
      ∧ readInteger "-9223372036854775808" = .error (.integerTooLarge "-9223372036854775808")
      ∧ readInteger "-0x8000000000000000" = .error (.integerTooLarge "-0x8000000000000000") :=
  ⟨rfl, rfl, rfl⟩

end BytecodeAssembler.Source
