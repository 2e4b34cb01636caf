import JavaOutline.Decimal.Binary64

/-!
# Shortest decimals

The shortest decimal that rounds to a given binary value: of the decimals with the fewest digits
that round to the value, the one nearest to it, and of two that are equally near the greater. It is
found by trying ever finer grids of decimals, on each of which only the two neighbours of the value
matter. It is written without exponent and always with a point.
-/

namespace JavaOutline

/-- A decimal number: `digits` times `10 ^ scale`. -/
structure Decimal where
  /-- The digits as a whole number. -/
  digits : Nat
  /-- The power of ten. -/
  scale : Int
  deriving DecidableEq, Repr

/-- How many times `n` must be multiplied by ten to reach `d`, if at most `limit` times. -/
def tensToReach (n d : Nat) : (limit : Nat) → Nat
  | 0 => 0
  | limit + 1 => if d ≤ n then 0 else tensToReach (10 * n) d limit + 1

/-- The exponent of the greatest power of ten that is at most `n / d`. -/
def floorLog10 (n d : Nat) : Int :=
  if d ≤ n then ((Nat.toDigits 10 (n / d)).length : Int) - 1
  else -(tensToReach n d 400 : Int)

namespace Binary64

/-- A number of quarter units of a value and a decimal number as multiples of one common unit. -/
def common (value : Binary64) (quarters : Nat) (decimal : Decimal) : Nat × Nat :=
  let exponent := value.exponent - 2
  (quarters * twoPow exponent.toNat * tenPow (-decimal.scale).toNat,
    decimal.digits * tenPow decimal.scale.toNat * twoPow (-exponent).toNat)

/-- Whether a decimal number rounds to a value. It does if it lies at most half way to the
neighbours of the value, which on the side of zero are nearer at a power of two; half way counts if
the mantissa is even. -/
def isReadAs (value : Binary64) (decimal : Decimal) : Bool :=
  let below := if value.mantissa = leastMantissa && leastExponent < value.exponent then 1 else 2
  let (low, decimalLow) := value.common (4 * value.mantissa - below) decimal
  let (high, decimalHigh) := value.common (4 * value.mantissa + 2) decimal
  if value.mantissa % 2 = 0 then low ≤ decimalLow && decimalHigh ≤ high
  else low < decimalLow && decimalHigh < high

/-- The decimal on the grid `10 ^ scale` that is nearest to a value among those that round to it;
half way between two, the greater is tried first. -/
def onGrid? (value : Binary64) (scale : Int) : Option Decimal :=
  let (numerator, denominator) := value.common (4 * value.mantissa) ⟨1, scale⟩
  let lower : Decimal := ⟨numerator / denominator, scale⟩
  let upper : Decimal := ⟨numerator / denominator + 1, scale⟩
  let nearer :=
    if 2 * (numerator % denominator) < denominator then [lower, upper]
    else [upper, lower]
  nearer.find? value.isReadAs

/-- The shortest decimal that rounds to a value. Seventeen digits always suffice. -/
def shortest (value : Binary64) : Decimal :=
  let (numerator, denominator) := value.common (4 * value.mantissa) ⟨1, 0⟩
  let top := floorLog10 numerator denominator
  ((List.range 17).findSome? fun (more : Nat) => value.onGrid? (top - more)).getD ⟨0, 0⟩

end Binary64

/-- A decimal number without exponent, with a digit at least on either side of the point. -/
def Decimal.positional (decimal : Decimal) : String :=
  let places := (-decimal.scale).toNat
  let digits := Nat.toDigits 10 (decimal.digits * tenPow decimal.scale.toNat)
  let digits := List.replicate (places + 1 - digits.length) '0' ++ digits
  let whole := digits.take (digits.length - places)
  let fraction := ((digits.drop (digits.length - places)).reverse.dropWhile (· = '0')).reverse
  String.ofList (whole ++ ['.'] ++ if fraction.isEmpty then ['0'] else fraction)

/-- The text of a number of the format. -/
def FloatValue.text : FloatValue → String
  | .finite negative magnitude =>
    (if negative then "-" else "")
      ++ if magnitude.mantissa = 0 then "0.0" else magnitude.shortest.positional
  | .infinite negative => if negative then "-inf" else "inf"
  | .notANumber => "NaN"

end JavaOutline
