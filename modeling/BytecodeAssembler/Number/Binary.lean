/-!
# Binary floating-point numbers

A number of the `float` or `double` type is held as its bit pattern, so
that signed zeros and every not-a-number stay apart. A **format** says how
the bits are split: one sign bit, an exponent field and a fraction field.
A finite pattern stands for `m · 2 ^ e` with the integer `m` below
`2 ^ (fractionBits + 1)`, and a ratio of naturals is **rounded** to the
nearest such number, a tie going to the even one.
-/

namespace BytecodeAssembler.Number

/-- The power `2 ^ n`. -/
def twoPow (n : Nat) : Nat := Nat.pow 2 n

/-- The power `10 ^ n`. -/
def tenPow (n : Nat) : Nat := Nat.pow 10 n

/-- A number of 32 bits, as its bit pattern. -/
structure Binary32 where
  /-- Sign, exponent and fraction, from the high bit down. -/
  bits : UInt32
  deriving DecidableEq, Hashable, Repr, Inhabited

/-- A number of 64 bits, as its bit pattern. -/
structure Binary64 where
  /-- Sign, exponent and fraction, from the high bit down. -/
  bits : UInt64
  deriving DecidableEq, Hashable, Repr, Inhabited

/-- **How a bit pattern is split** into exponent and fraction. -/
structure Format where
  /-- The width of the fraction field. -/
  fractionBits : Nat
  /-- The width of the exponent field. -/
  exponentBits : Nat

namespace Format

/-- The format of `float`. -/
def single : Format := ⟨23, 8⟩

/-- The format of `double`. -/
def double : Format := ⟨52, 11⟩

/-- The exponent of the last place of the smallest numbers. -/
def minExponent (f : Format) : Int :=
  2 - (twoPow (f.exponentBits - 1) : Nat) - (f.fractionBits : Int)

/-- The pattern of positive infinity: an exponent field of ones. -/
def infinity (f : Format) : Nat :=
  (twoPow f.exponentBits - 1) * twoPow f.fractionBits

/-- The integer quotient of `m` by `2 ^ shift`, rounded to nearest. A tie
goes to the even quotient, unless `sticky` says that `m` itself was cut
down and stands for a little more. -/
def roundShift (m shift : Nat) (sticky : Bool) : Nat :=
  let quotient := m / twoPow shift
  let twice := 2 * (m % twoPow shift)
  if twice > twoPow shift ∨ (twice = twoPow shift ∧ (sticky ∨ quotient % 2 = 1)) then
    quotient + 1
  else quotient

/-- **The pattern, without sign, nearest to `num / den`.** The quotient is
first taken with at least two bits more than the format keeps, and its
remainder only matters for ties. A carry out of the fraction field moves
into the exponent field, which is the right pattern, and anything from
infinity up is infinity. -/
def roundRatio (f : Format) (num den : Nat) : Nat :=
  if num = 0 then 0
  else
    let scale := f.fractionBits + 4 + den.log2 - num.log2
    let m := num * twoPow scale / den
    let sticky := num * twoPow scale % den != 0
    let exponent : Int := -scale
    let target := max (exponent + m.log2 - f.fractionBits) f.minExponent
    let q := roundShift m (target - exponent).toNat sticky
    let biased := (target - f.minExponent).toNat
    min (q + biased * twoPow f.fractionBits) f.infinity

/-- The integer `m` and exponent `e` for which a finite pattern, taken
without its sign, stands for `m · 2 ^ e`. -/
def parts (f : Format) (pattern : Nat) : Nat × Int :=
  let fraction := pattern % twoPow f.fractionBits
  let field := pattern / twoPow f.fractionBits % twoPow f.exponentBits
  if field = 0 then (fraction, f.minExponent)
  else (twoPow f.fractionBits + fraction, f.minExponent + (field - 1 : Nat))

/-- The naturals whose ratio is `m · 2 ^ e`. -/
def ratio (m : Nat) (e : Int) : Nat × Nat :=
  if 0 ≤ e then (m * twoPow e.toNat, 1) else (m, twoPow (-e).toNat)

end Format

namespace Binary32

/-- The pattern of a magnitude with a sign in front. -/
def ofMagnitude (negative : Bool) (magnitude : Nat) : Binary32 :=
  ⟨UInt32.ofNat (magnitude + if negative then twoPow 31 else 0)⟩

/-- The `float` nearest to an integer. -/
def ofInt (n : Int) : Binary32 :=
  ofMagnitude (n < 0) (Format.single.roundRatio n.natAbs 1)

end Binary32

namespace Binary64

/-- The pattern of a magnitude with a sign in front. -/
def ofMagnitude (negative : Bool) (magnitude : Nat) : Binary64 :=
  ⟨UInt64.ofNat (magnitude + if negative then twoPow 63 else 0)⟩

/-- The `double` nearest to an integer. -/
def ofInt (n : Int) : Binary64 :=
  ofMagnitude (n < 0) (Format.double.roundRatio n.natAbs 1)

/-- Whether the sign bit is set. -/
def isNegative (x : Binary64) : Bool :=
  twoPow 63 ≤ x.bits.toNat

/-- The pattern without its sign bit. -/
def magnitude (x : Binary64) : Nat :=
  x.bits.toNat % twoPow 63

/-- Whether the pattern stands for no number. -/
def isNaN (x : Binary64) : Bool :=
  Format.double.infinity < x.magnitude

/-- **The `float` nearest to a `double`.** A pattern that stands for no
number keeps its sign and the high bits of its fraction, and is marked as
quiet. -/
def toBinary32 (x : Binary64) : Binary32 :=
  let magnitude :=
    if x.isNaN then
      let fraction := x.magnitude % twoPow 52 / twoPow 29
      Format.single.infinity + (fraction ||| twoPow 22)
    else if x.magnitude = Format.double.infinity then Format.single.infinity
    else
      let (m, e) := Format.double.parts x.magnitude
      let (num, den) := Format.ratio m e
      Format.single.roundRatio num den
  Binary32.ofMagnitude x.isNegative magnitude

end Binary64

end BytecodeAssembler.Number
