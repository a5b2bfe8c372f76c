import BytecodeAssembler.Number.Binary

/-!
# Decimal text of floating-point numbers

Reading takes a sign, digits with at most one point among them, and an
optional exponent, and gives the nearest `double`. The digits of an exponent
are taken up to a bound that only texts with tens of thousands of digits can
tell from none.

Writing takes the **fewest digits that read back**: a decimal reads back
when it lies in the interval of reals that round to the number. The grid of
decimals with `n` significant digits is tried for growing `n`, and on each
grid only the two neighbours of the number can be the nearest that reads
back.
-/

namespace BytecodeAssembler.Number

/-! ## Reading -/

/-- The digits at the front of a text, and the rest. -/
def spanDigits (text : List Char) : List Char × List Char :=
  (text.takeWhile Char.isDigit, text.dropWhile Char.isDigit)

/-- The number that decimal digits spell. -/
def digitsValue (digits : List Char) : Nat :=
  digits.foldl (fun acc c => acc * 10 + (c.toNat - '0'.toNat)) 0

/-- The least exponent that takes no further digits. -/
def exponentBound : Nat := 65536

/-- **The value of the digits of an exponent.** Digits are taken until the
bound is reached, and those behind are passed over, so the value stays
within ten times the bound. -/
def exponentValue (digits : List Char) : Nat :=
  digits.foldl (fun acc c =>
    if acc < exponentBound then acc * 10 + (c.toNat - '0'.toNat) else acc) 0

/-- An exponent after its mark: an optional sign and at least one digit,
up to the end of the text. -/
def readExponent? (text : List Char) : Option Int :=
  let (negative, digits) :=
    match text with
    | '-' :: rest => (true, rest)
    | '+' :: rest => (false, rest)
    | rest => (false, rest)
  if digits.isEmpty || !digits.all Char.isDigit then none
  else
    let value := Int.ofNat (exponentValue digits)
    some (if negative then -value else value)

/-- The decimal `m · 10 ^ e` that an unsigned text spells: digits, at most
one point, and an optional exponent. A point needs a digit on one side. -/
def readDecimal? (text : List Char) : Option (Nat × Int) :=
  let (whole, afterWhole) := spanDigits text
  let (fraction, rest) :=
    match afterWhole with
    | '.' :: tail => spanDigits tail
    | tail => ([], tail)
  if whole.isEmpty && fraction.isEmpty then none
  else
    let m := digitsValue (whole ++ fraction)
    let e := -Int.ofNat fraction.length
    match rest with
    | [] => some (m, e)
    | mark :: tail =>
      if mark = 'e' || mark = 'E' then (readExponent? tail).map fun x => (m, e + x)
      else none

/-- **The magnitude of the `double` nearest to `m · 10 ^ e`.** With `b` for
the binary logarithm, `m` lies between the powers of ten with the exponents
`3 * b / 10` and `b / 3 + 1`. A number that is thereby beyond every finite
`double`, or below half the smallest one, is answered without raising ten
to its exponent. -/
def roundDecimal (m : Nat) (e : Int) : Nat :=
  if m = 0 then 0
  else
    let lowPlace := e + Int.ofNat (3 * m.log2 / 10)
    let highPlace := e + Int.ofNat (m.log2 / 3 + 1)
    if 400 < lowPlace then Format.double.infinity
    else if highPlace < -400 then 0
    else if 0 ≤ e then Format.double.roundRatio (m * tenPow e.toNat) 1
    else Format.double.roundRatio m (tenPow (-e).toNat)

/-- The names of the values that are no finite number, and their
magnitudes. Letters count the same in either case. -/
def specialMagnitude? (text : List Char) : Option Nat :=
  let name := String.ofList (text.map Char.toLower)
  if name = "inf" || name = "infinity" then some Format.double.infinity
  else if name = "nan" then some (Format.double.infinity + twoPow 51)
  else none

/-- **The `double` that a text spells**, if it spells one. -/
def readBinary64? (text : List Char) : Option Binary64 :=
  let (negative, body) :=
    match text with
    | '-' :: rest => (true, rest)
    | '+' :: rest => (false, rest)
    | rest => (false, rest)
  let magnitude? :=
    match readDecimal? body with
    | some (m, e) => some (roundDecimal m e)
    | none => specialMagnitude? body
  magnitude?.map (Binary64.ofMagnitude negative)

/-! ## The fewest digits that read back -/

/-- **The reals that round to one number**, as naturals over a common
denominator. -/
structure Interval where
  /-- Four times the number. -/
  value : Nat
  /-- Four times the lower end. -/
  low : Nat
  /-- Four times the upper end. -/
  high : Nat
  /-- Four times one. -/
  unit : Nat
  /-- Whether the ends round to the number too. -/
  closed : Bool

namespace Interval

/-- The interval of `m · 2 ^ e`. Below a power of two the numbers are twice
as dense, so the lower end is nearer. -/
def ofParts (f : Format) (m : Nat) (e : Int) : Interval :=
  let gap := if m = twoPow f.fractionBits ∧ f.minExponent < e then 1 else 2
  let (scale, unit) := Format.ratio 1 e
  ⟨4 * m * scale, (4 * m - gap) * scale, (4 * m + 2) * scale, 4 * unit, m % 2 = 0⟩

/-- Whether `num / den` lies in the interval. -/
def contains (i : Interval) (num den : Nat) : Bool :=
  let point := num * i.unit
  if i.closed then i.low * den ≤ point && point ≤ i.high * den
  else i.low * den < point && point < i.high * den

/-- The least `k` from `guess` on with `value < 10 ^ (k + 1)`, looking at
most `fuel` places up: the place of the first digit. -/
def firstPlace (i : Interval) : Nat → Int → Int
  | 0, guess => guess
  | fuel + 1, guess =>
    let (num, den) := if 0 ≤ guess + 1 then (tenPow (guess + 1).toNat, 1)
      else (1, tenPow (-(guess + 1)).toNat)
    if i.value * den < num * i.unit then guess
    else firstPlace i fuel (guess + 1)

/-- The decimal with its last digit at `place` that reads back and is
nearest to the number, if one reads back. Halfway between two of them the
upper one is taken. -/
def nearestAt? (i : Interval) (place : Int) : Option Nat :=
  let (num, den) := if 0 ≤ place then (tenPow place.toNat, 1)
    else (1, tenPow (-place).toNat)
  -- the number, counted in units of the grid, is `i.value * den / (num * i.unit)`
  let below := i.value * den / (num * i.unit)
  let rest := i.value * den % (num * i.unit)
  let lowHit := i.contains (below * num) den
  let highHit := i.contains ((below + 1) * num) den
  match lowHit, highHit with
  | true, true => some (if 2 * rest < num * i.unit then below else below + 1)
  | true, false => some below
  | false, true => some (below + 1)
  | false, false => none

end Interval

/-- Drop zeros at the end of a decimal, at most `fuel` of them. -/
def dropZeros : Nat → Nat → Int → Nat × Int
  | 0, m, e => (m, e)
  | fuel + 1, m, e =>
    if m ≠ 0 ∧ m % 10 = 0 then dropZeros fuel (m / 10) (e + 1) else (m, e)

/-- **The decimal `m · 10 ^ e` with the fewest digits that reads back as
the given positive `double`.** Seventeen digits always do. -/
def shortestDecimal (magnitude : Nat) : Nat × Int :=
  let (m, e) := Format.double.parts magnitude
  let interval := Interval.ofParts Format.double m e
  -- the first place is at least a little under `log₁₀ 2` times the binary exponent
  let guess := (Int.ofNat m.log2 + e) * 30103 / 100000 - 1
  let place := interval.firstPlace 4 guess
  let found := (List.range 17).findSome? fun (n : Nat) =>
    (interval.nearestAt? (place - n)).map fun digits => (digits, place - n)
  match found with
  | some (digits, exponent) => dropZeros 17 digits exponent
  | none => (0, 0)

/-! ## Writing -/

/-- **Where positional notation ends**: the point of a decimal `0.d₁d₂… ·
10 ^ point` for which the number is written without an exponent. -/
structure Layout where
  /-- The least such point. -/
  lowPoint : Int
  /-- The greatest such point. -/
  highPoint : Int

/-- A number is written positionally from `0.0001` up to, but not
including, `10 ^ 16`. -/
def Layout.display : Layout := ⟨-3, 16⟩

/-- Digits with the point after the first `point` of them, and at least one
digit on each side of it. -/
def positional (digits : List Char) (point : Int) : List Char :=
  if point ≤ 0 then
    ['0', '.'] ++ List.replicate (-point).toNat '0' ++ digits
  else
    let n := point.toNat
    if digits.length ≤ n then
      digits ++ List.replicate (n - digits.length) '0' ++ ['.', '0']
    else digits.take n ++ ['.'] ++ digits.drop n

/-- Digits with the point after the first of them, and an exponent. -/
def scientific (digits : List Char) (point : Int) : List Char :=
  let mantissa :=
    match digits with
    | [] => ['0']
    | [d] => [d]
    | d :: rest => d :: '.' :: rest
  mantissa ++ ['e'] ++ (toString (point - 1)).toList

/-- **The text of a `double`**: the fewest digits that read back, with at
least one digit after the point in positional notation. -/
def Binary64.display (x : Binary64) : String :=
  let body :=
    if x.isNaN then ['N', 'a', 'N']
    else
      let unsigned :=
        if x.magnitude = Format.double.infinity then ['i', 'n', 'f']
        else if x.magnitude = 0 then ['0', '.', '0']
        else
          let (m, e) := shortestDecimal x.magnitude
          let digits := Nat.toDigits 10 m
          let point := e + digits.length
          if Layout.display.lowPoint ≤ point ∧ point ≤ Layout.display.highPoint then
            positional digits point
          else scientific digits point
      if x.isNegative then '-' :: unsigned else unsigned
  String.ofList body

end BytecodeAssembler.Number
