import BytecodeAssembler.Text.Integer
import Mathlib.Data.List.Induction
import Mathlib.Tactic.IntervalCases

/-!
# Digits and the numbers they denote

What digits denote is said here without reading them: a **numeral** is a
digit, or a numeral with one digit more, which is then worth the base times
what it was and that digit (`Numeral`). Reading the digits of a numeral gives
its number, and gives up exactly if the number is above the bound; whatever can
be read, on the other hand, is a numeral.

A signed reader adds a sign and two bounds, since there is one negative number
more than there are positive ones (`Sign.limit`).
-/

namespace BytecodeAssembler.Text

variable {base bound n k : Nat} {c : Char} {digits text : List Char}

/-! ## Digits -/

/-- **The character is the digit `k` of a base**, where letters are digits in
either case. -/
def IsDigit (base : Nat) (c : Char) (k : Nat) : Prop :=
  k < base ∧ (c = k.digitChar ∨ c = k.digitChar.toUpper)

/-- A digit of ten is a digit of sixteen. -/
theorem IsDigit.mono {base' : Nat} (h : IsDigit base c k) (hbase : base ≤ base') :
    IsDigit base' c k :=
  ⟨Nat.lt_of_lt_of_le h.1 hbase, h.2⟩

/-- What holds of each of the digits holds of a digit. -/
theorem IsDigit.all {P : Char → Bool} (h : IsDigit base c k) (hbase : base ≤ 16)
    (hall : "0123456789abcdefABCDEF".toList.all P = true) : P c = true := by
  refine List.all_eq_true.1 hall c ?_
  obtain ⟨hk, hc⟩ := h.mono hbase
  rcases hc with rfl | rfl <;> interval_cases k <;> decide

theorem IsDigit.isDigit_ten (h : IsDigit 10 c k) : c.isDigit = true := by
  obtain ⟨hk, hc⟩ := h
  rcases hc with rfl | rfl <;> interval_cases k <;> rfl

/-- A character of a run of characters is known by its place in the run. -/
theorem eq_ofNat_of_le_of_le {low high : Char} (h : (low ≤ c && c ≤ high) = true) :
    ∃ m, low.toNat ≤ m ∧ m ≤ high.toNat ∧ c = Char.ofNat m := by
  have hrange : low.toNat ≤ c.toNat ∧ c.toNat ≤ high.toNat := by
    simpa [Char.le_def, UInt32.le_iff_toNat_le] using h
  exact ⟨c.toNat, hrange.1, hrange.2, (Char.ofNat_toNat c).symm⟩

/-- **The value of a digit is found**, and nothing else has one. -/
theorem digitValue?_eq_some_iff (hbase : base ≤ 16) :
    digitValue? base c = some k ↔ IsDigit base c k := by
  unfold digitValue?
  refine ⟨fun h => ?_, fun h => ?_⟩
  · split at h
    next hc =>
      obtain ⟨hlt, rfl⟩ : _ < base ∧ _ = k := by simpa using h
      obtain ⟨m, hlow, hhigh, rfl⟩ := eq_ofNat_of_le_of_le hc
      refine ⟨hlt, .inl ?_⟩
      change 48 ≤ m at hlow
      change m ≤ 57 at hhigh
      -- few characters are left, and each is compared with the digit of its value
      interval_cases m <;> decide
    next =>
      split at h
      next hc =>
        obtain ⟨hlt, rfl⟩ : _ < base ∧ _ = k := by simpa using h
        obtain ⟨m, hlow, hhigh, rfl⟩ := eq_ofNat_of_le_of_le hc
        refine ⟨hlt, .inl ?_⟩
        change 97 ≤ m at hlow
        change m ≤ 102 at hhigh
        interval_cases m <;> decide
      next =>
        split at h
        next hc =>
          obtain ⟨hlt, rfl⟩ : _ < base ∧ _ = k := by simpa using h
          obtain ⟨m, hlow, hhigh, rfl⟩ := eq_ofNat_of_le_of_le hc
          refine ⟨hlt, .inr ?_⟩
          change 65 ≤ m at hlow
          change m ≤ 70 at hhigh
          interval_cases m <;> decide
        next => simp at h
  · obtain ⟨hk, hc⟩ := h
    have hsmall : k < 16 := Nat.lt_of_lt_of_le hk hbase
    rcases hc with rfl | rfl <;> interval_cases k <;> exact if_pos hk

/-- A decimal digit is one of ten. -/
theorem exists_isDigit_of_isDigit (h : c.isDigit = true) : ∃ k, IsDigit 10 c k := by
  have hrange : ('0' ≤ c && c ≤ '9') = true := by
    simpa [Char.isDigit, Char.le_def] using h
  refine ⟨c.toNat - '0'.toNat, (digitValue?_eq_some_iff (by decide)).1 ?_⟩
  obtain ⟨m, hlow, hhigh, rfl⟩ := eq_ofNat_of_le_of_le hrange
  change 48 ≤ m at hlow
  change m ≤ 57 at hhigh
  interval_cases m <;> rfl

/-! ## Numerals -/

/-- **The number that digits denote**, the last digit being worth its own
value. -/
inductive Numeral (base : Nat) : List Char → Nat → Prop where
  | digit {c : Char} {k : Nat} (h : IsDigit base c k) : Numeral base [c] k
  | concat {digits : List Char} {n : Nat} {c : Char} {k : Nat} (h : Numeral base digits n)
      (hc : IsDigit base c k) : Numeral base (digits ++ [c]) (n * base + k)

theorem Numeral.isDigit (h : Numeral base digits n) (hc : c ∈ digits) : ∃ k, IsDigit base c k := by
  induction h with
  | @digit c' k h =>
    obtain rfl := List.mem_singleton.1 hc
    exact ⟨k, h⟩
  | @concat digits n c' k _ h ih =>
    rcases List.mem_append.1 hc with hfirst | hlast
    · exact ih hfirst
    · obtain rfl := List.mem_singleton.1 hlast
      exact ⟨k, h⟩

theorem Numeral.ne_nil (h : Numeral base digits n) : digits ≠ [] := by
  cases h with
  | digit => exact List.cons_ne_nil _ _
  | concat => exact List.concat_ne_nil _ _

/-- **Decimal digits denote a number.** -/
theorem exists_numeral_of_all (hsome : digits ≠ []) (h : digits.all Char.isDigit = true) :
    ∃ n, Numeral 10 digits n := by
  induction digits using List.reverseRecOn with
  | nil => exact absurd rfl hsome
  | append_singleton digits c ih =>
    rw [List.all_append, Bool.and_eq_true] at h
    obtain ⟨k, hk⟩ := exists_isDigit_of_isDigit (List.all_eq_true.1 h.2 c List.mem_cons_self)
    cases digits with
    | nil => exact ⟨k, .digit hk⟩
    | cons first rest =>
      obtain ⟨n, hn⟩ := ih (List.cons_ne_nil first rest) h.1
      exact ⟨n * 10 + k, hn.concat hk⟩

/-- **Every number has a numeral.** -/
theorem numeral_toDigits (hone : 1 < base) (n : Nat) : Numeral base (base.toDigits n) n := by
  induction n using Nat.strongRecOn with
  | ind n ih =>
    rw [Nat.toDigits_eq_if hone]
    split
    next hsmall => exact .digit ⟨hsmall, .inl rfl⟩
    next hlarge =>
      have hpos : 0 < base := Nat.lt_trans Nat.zero_lt_one hone
      have hless : n / base < n :=
        Nat.div_lt_self (Nat.lt_of_lt_of_le hpos (Nat.le_of_not_lt hlarge)) hone
      have hlast : IsDigit base (n % base).digitChar (n % base) :=
        ⟨Nat.mod_lt n hpos, .inl rfl⟩
      have hnumeral := (ih (n / base) hless).concat hlast
      rwa [Nat.div_add_mod'] at hnumeral

/-! ## Reading digits -/

/-- Digits that are read one after the other are read from the left. -/
theorem readDigits_append (xs ys : List Char) (acc : Nat) :
    readDigits base bound (xs ++ ys) acc
      = (readDigits base bound xs acc).bind (readDigits base bound ys) := by
  induction xs generalizing acc with
  | nil => rfl
  | cons c xs ih =>
    simp only [List.cons_append, readDigits]
    cases digitValue? base c with
    | none => rfl
    | some k =>
      dsimp only
      split
      next => exact ih _
      next => rfl

theorem readDigits_digit (hbase : base ≤ 16) (hc : IsDigit base c k) (acc : Nat) :
    readDigits base bound [c] acc
      = if acc * base + k ≤ bound then .ok (acc * base + k) else .error .outOfRange := by
  simp only [readDigits, (digitValue?_eq_some_iff hbase).2 hc]

/-- **The digits of a numeral are read as its number**, unless it is above the
bound. -/
theorem readDigits_of_numeral (hbase : base ≤ 16) (h : Numeral base digits n) :
    readDigits base bound digits 0 = if n ≤ bound then .ok n else .error .outOfRange := by
  induction h with
  | digit h =>
    rw [readDigits_digit hbase h]
    simp only [Nat.zero_mul, Nat.zero_add]
  | @concat digits n c k _ hc ih =>
    rw [readDigits_append, ih]
    by_cases hfits : n ≤ bound
    · rw [if_pos hfits]
      exact readDigits_digit hbase hc n
    · -- what is too large does not become smaller by another digit
      have hmore : n ≤ n * base + k := by
        have hpos : 0 < base := Nat.lt_of_le_of_lt (Nat.zero_le k) hc.1
        exact Nat.le_trans (Nat.le_mul_of_pos_right n hpos) (Nat.le_add_right _ k)
      rw [if_neg hfits, if_neg fun hle => hfits (Nat.le_trans hmore hle)]
      rfl

/-- **What is read is a numeral.** -/
theorem numeral_of_readDigits (hbase : base ≤ 16) (hdigits : digits ≠ [])
    (h : readDigits base bound digits 0 = .ok n) : Numeral base digits n ∧ n ≤ bound := by
  have hnumeral : ∃ m, Numeral base digits m := by
    -- a numeral grows at its end, as the value read does, so the induction goes from there
    induction digits using List.reverseRecOn generalizing n with
    | nil => exact absurd rfl hdigits
    | append_singleton digits c ih =>
      rw [readDigits_append] at h
      cases hread : readDigits base bound digits 0 with
      | error fault =>
        rw [hread] at h
        cases h
      | ok m =>
        rw [hread] at h
        obtain ⟨k, hk⟩ : ∃ k, digitValue? base c = some k := by
          cases hc : digitValue? base c with
          | none =>
            simp only [Except.bind, readDigits, hc] at h
            cases h
          | some k => exact ⟨k, rfl⟩
        have hc := (digitValue?_eq_some_iff hbase).1 hk
        cases digits with
        | nil => exact ⟨k, .digit hc⟩
        | cons first rest =>
          obtain ⟨m', hm'⟩ := ih (List.cons_ne_nil first rest) hread
          exact ⟨m' * base + k, hm'.concat hc⟩
  -- the value of a numeral is known, so the value read has to be it
  obtain ⟨m, hm⟩ := hnumeral
  rw [readDigits_of_numeral hbase hm] at h
  split at h
  next hle =>
    cases h
    exact ⟨hm, hle⟩
  next => cases h

/-! ## Signs -/

/-- **A sign**, which may be left out. -/
inductive Sign where
  | none
  | plus
  | minus
  deriving DecidableEq

namespace Sign

def chars : Sign → List Char
  | none => []
  | plus => ['+']
  | minus => ['-']

/-- What the sign makes of a number. -/
def apply : Sign → Int → Int
  | minus, value => -value
  | none, value | plus, value => value

/-- The largest number that can follow the sign. -/
def limit : Sign → Nat
  | minus => 9223372036854775808
  | none | plus => 9223372036854775807

end Sign

/-- Digits do not look like signs. -/
theorem IsDigit.ne_sign (h : IsDigit base c k) (hbase : base ≤ 16) : c ≠ '+' ∧ c ≠ '-' := by
  simpa using h.all (P := fun c => c != '+' && c != '-') hbase rfl

theorem Numeral.exists_cons (h : Numeral base digits n) (hbase : base ≤ 16) :
    ∃ c rest, digits = c :: rest ∧ c ≠ '+' ∧ c ≠ '-' := by
  cases hdigits : digits with
  | nil => exact absurd hdigits h.ne_nil
  | cons c rest =>
    obtain ⟨k, hk⟩ := h.isDigit (hdigits ▸ List.mem_cons_self)
    exact ⟨c, rest, rfl, hk.ne_sign hbase⟩

/-- **Behind a sign, digits are read** up to what the sign allows. Without one
they may not begin like one. -/
theorem readSigned_chars (s : Sign) {rest : List Char} (hplus : c ≠ '+') (hminus : c ≠ '-') :
    readSigned base 9223372036854775808 9223372036854775807 (s.chars ++ c :: rest)
      = (readDigits base s.limit (c :: rest) 0).map fun n : Nat => s.apply n := by
  cases s with
  | none =>
    rw [Sign.chars, List.nil_append, readSigned]
    · rfl
    · simp
    · simp [hplus]
    · simp [hminus]
    · simp [hplus]
    · simp [hminus]
  | plus => rfl
  | minus => rfl

/-- **A sign and a numeral are read** unless the number is too large for the
sign. -/
theorem readInt64_of_numeral (hbase : base ≤ 16) (s : Sign) (h : Numeral base digits n) :
    readInt64 base (s.chars ++ digits)
      = if n ≤ s.limit then .ok (Int64.ofInt (s.apply n)) else .error .outOfRange := by
  obtain ⟨c, rest, rfl, hplus, hminus⟩ := h.exists_cons hbase
  rw [readInt64, readSigned_chars s hplus hminus, readDigits_of_numeral hbase h]
  split <;> rfl

/-- **Whatever is read is a sign and a numeral**, and the number is not too
large for the sign. -/
theorem exists_numeral_of_readInt64 (hbase : base ≤ 16) {value : Int64}
    (h : readInt64 base text = .ok value) :
    ∃ (s : Sign) (digits : List Char) (n : Nat), text = s.chars ++ digits
      ∧ Numeral base digits n ∧ n ≤ s.limit ∧ value = Int64.ofInt (s.apply n) := by
  have hshape : ∃ (s : Sign) (digits : List Char), text = s.chars ++ digits ∧ digits ≠ []
      ∧ readInt64 base text
        = ((readDigits base s.limit digits 0).map fun n : Nat => s.apply n).map Int64.ofInt := by
    unfold readInt64 at h ⊢
    fun_cases readSigned base 9223372036854775808 9223372036854775807 text with
    | case1 | case2 | case3 => cases h
    | case4 digits hdigits => exact ⟨.plus, digits, rfl, hdigits, rfl⟩
    | case5 digits hdigits => exact ⟨.minus, digits, rfl, hdigits, rfl⟩
    | case6 _ hnil => exact ⟨.none, text, rfl, hnil, rfl⟩
  obtain ⟨s, digits, rfl, hdigits, hread⟩ := hshape
  rw [hread] at h
  cases hn : readDigits base s.limit digits 0 with
  | error fault =>
    rw [hn] at h
    cases h
  | ok n =>
    rw [hn] at h
    obtain ⟨hnumeral, hlimit⟩ := numeral_of_readDigits hbase hdigits hn
    exact ⟨s, digits, n, rfl, hnumeral, hlimit, (Except.ok.inj h).symm⟩

end BytecodeAssembler.Text
