/-!
# Shortest decimal digits of a double

A finite positive double is `mantissa * 2 ^ exponent`. Every real number in its rounding interval
reads back as this double. The shortest digits are found grid by grid: for one digit, two digits
and so on, the two neighbours of the value among the multiples of a power of ten are tested against
the interval, and the first grid with a hit wins. All comparisons are exact, on natural numbers.
-/

namespace MessageGrammar.Decimal

/-- Which of two equally near neighbours on a grid is taken. -/
inductive Tie where
  /-- The greater one. -/
  | up
  /-- The even one. -/
  | even
  deriving DecidableEq, Repr

/-- What the bits of a double say. -/
inductive Magnitude where
  /-- Not a number. -/
  | nan
  /-- Beyond every finite double. -/
  | infinite
  /-- The number `mantissa * 2 ^ exponent`. -/
  | finite (mantissa : Nat) (exponent : Int)
  deriving DecidableEq, Repr

/-- The sign bit: also set for negative zero. -/
def isNegative (x : Float) : Bool :=
  x.toBits >>> 63 == 1

/-- The powers of two. -/
def twoTo (n : Nat) : Nat :=
  Nat.pow 2 n

/-- The powers of ten. -/
def tenTo (n : Nat) : Nat :=
  Nat.pow 10 n

/-- Exponent and fraction fields without the sign; subnormal numbers have no hidden bit. -/
def magnitude (x : Float) : Magnitude :=
  let biased := ((x.toBits >>> 52) &&& 0x7ff).toNat
  let fraction := (x.toBits &&& 0xfffffffffffff).toNat
  if biased = 0x7ff then
    if fraction = 0 then .infinite else .nan
  else if biased = 0 then .finite fraction (-1074)
  else .finite (twoTo 52 + fraction) (biased - 1075)

/-- The reals that round to a double, as numerators over one denominator. -/
structure RoundingInterval where
  /-- Half way to the next smaller double. -/
  lower : Nat
  /-- The double itself. -/
  value : Nat
  /-- Half way to the next greater double. -/
  upper : Nat
  /-- Common denominator. -/
  scale : Nat
  /-- Whether the two ends round to the double: they do for an even mantissa. -/
  closed : Bool
  deriving DecidableEq, Repr

/-- The gap below a power of two is half the gap above it, the smallest normal number apart. -/
def roundingInterval (mantissa : Nat) (exponent : Int) : RoundingInterval :=
  let below := if mantissa = twoTo 52 ∧ exponent > -1074 then 1 else 2
  let factor := twoTo (exponent - 2).toNat
  { lower := (4 * mantissa - below) * factor
    value := 4 * mantissa * factor
    upper := (4 * mantissa + 2) * factor
    scale := twoTo (2 - exponent).toNat
    closed := mantissa % 2 = 0 }

/-- The multiple `count * 10 ^ power` lies in the interval. -/
def RoundingInterval.contains (interval : RoundingInterval) (count : Nat) (power : Int) : Bool :=
  let point := count * tenTo power.toNat * interval.scale
  let low := interval.lower * tenTo (-power).toNat
  let high := interval.upper * tenTo (-power).toNat
  if interval.closed then low ≤ point && point ≤ high else low < point && point < high

/-- The multiple of `10 ^ power` nearest to the value among the neighbours in the interval. -/
def RoundingInterval.onGrid (interval : RoundingInterval) (tie : Tie) (power : Int) : Option Nat :=
  let unit := tenTo power.toNat * interval.scale
  let value := interval.value * tenTo (-power).toNat
  let below := value / unit
  let remainder := value % unit
  match interval.contains below power, interval.contains (below + 1) power with
  | false, false => none
  | true, false => some below
  | false, true => some (below + 1)
  | true, true =>
    if 2 * remainder < unit then some below
    else if unit < 2 * remainder then some (below + 1)
    else match tie with
      | .up => some (below + 1)
      | .even => some (below + below % 2)

/-- Number of decimal digits before the point of the value, negative for leading zeros after it. -/
def RoundingInterval.width (interval : RoundingInterval) : Int :=
  let shift := (Nat.toDigits 10 interval.scale).length
  let whole := interval.value * tenTo shift / interval.scale
  (Nat.toDigits 10 whole).length - shift

/-- Tries the grids from `10 ^ power` down, at most `fuel` finer ones. -/
def RoundingInterval.search (interval : RoundingInterval) (tie : Tie) : Nat → Int → Nat × Int
  | 0, power =>
    (interval.value * tenTo (-power).toNat / (tenTo power.toNat * interval.scale), power)
  | fuel + 1, power =>
    match interval.onGrid tie power with
    | some count => (count, power)
    | none => interval.search tie fuel (power - 1)

/-- Decimal digits, the first one standing for `10 ^ exponent`. -/
structure Digits where
  /-- Digits from the most significant one, without trailing zeros. -/
  digits : List Char
  /-- Decimal exponent of the first digit. -/
  exponent : Int
  deriving DecidableEq, Repr

/-- The digits of `count * 10 ^ power`. -/
def Digits.ofMultiple (count : Nat) (power : Int) : Digits :=
  let written := Nat.toDigits 10 count
  let kept := (written.reverse.dropWhile (· = '0')).reverse
  ⟨kept, power + written.length - 1⟩

/-- Fewest digits that read back as `mantissa * 2 ^ exponent`, the nearest ones of that length.
Seventeen digits always suffice. Zero has the digit `0`. -/
def shortest (tie : Tie) (mantissa : Nat) (exponent : Int) : Digits :=
  if mantissa = 0 then ⟨['0'], 0⟩
  else
    let interval := roundingInterval mantissa exponent
    let (count, power) := interval.search tie 17 (interval.width - 1)
    Digits.ofMultiple count power

end MessageGrammar.Decimal
