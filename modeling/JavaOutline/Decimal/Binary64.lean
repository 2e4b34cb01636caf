import JavaOutline.Text.Digits

/-!
# Binary floating-point numbers

The finite values of the 64-bit binary format, as a whole number of units of a power of two.
Rounding goes to the nearest value, and a tie to the even one; everything is exact arithmetic on
natural numbers.
-/

namespace JavaOutline

/-- A non-negative finite value of the format: `mantissa` units of `2 ^ exponent`. A mantissa below
`2 ^ 52` goes with the least exponent only. -/
structure Binary64 where
  /-- The number of units; less than `2 ^ 53`. -/
  mantissa : Nat
  /-- The exponent of the unit; from -1074 to 971. -/
  exponent : Int
  deriving DecidableEq, Repr

/-- A number of the format. -/
inductive FloatValue where
  | finite (negative : Bool) (magnitude : Binary64)
  | infinite (negative : Bool)
  | notANumber
  deriving DecidableEq, Repr

/-- The whole number nearest to `n / d`; of two, the even one. -/
def roundDiv (n d : Nat) : Nat :=
  let quotient := n / d
  let twice := 2 * (n % d)
  if twice < d || (twice = d && quotient % 2 = 0) then quotient else quotient + 1

/-- A power of two. -/
def twoPow (n : Nat) : Nat := Nat.pow 2 n

/-- A power of ten. -/
def tenPow (n : Nat) : Nat := Nat.pow 10 n

namespace Binary64

/-- The least mantissa of a value that does not have the least exponent: 2 to the power of 52. -/
def leastMantissa : Nat := 0x10000000000000

/-- The exponent of the least unit. -/
def leastExponent : Int := -1074

/-- The exponent of the greatest unit. -/
def greatestExponent : Int := 971

/-- The numerator and denominator of `(n / d) / 2 ^ exponent`. -/
def scaled (n d : Nat) (exponent : Int) : Nat × Nat :=
  (n * twoPow (-exponent).toNat, d * twoPow exponent.toNat)

/-- The value nearest to `n / d`, for a positive `d`; `none` if that is beyond the greatest. -/
def ofRatio? (n d : Nat) : Option Binary64 :=
  if n = 0 then some ⟨0, leastExponent⟩
  else
    -- The quotient lies between `2 ^ 51` and `2 ^ 53` units of this exponent.
    let estimate : Int := (n.log2 : Int) - (d.log2 : Int) - 52
    let (numerator, denominator) := scaled n d estimate
    let exponent := max leastExponent <|
      if numerator < leastMantissa * denominator then estimate - 1 else estimate
    let (numerator, denominator) := scaled n d exponent
    let mantissa := roundDiv numerator denominator
    let (mantissa, exponent) :=
      if mantissa = 2 * leastMantissa then (leastMantissa, exponent + 1) else (mantissa, exponent)
    if greatestExponent < exponent then none else some ⟨mantissa, exponent⟩

/-- The value nearest to a decimal number with the given digits times a power of ten; `none` if
that is beyond the greatest. -/
def ofDecimal? (digits : List Char) (scale : Int) : Option Binary64 :=
  let digits := digits.dropWhile (· = '0')
  let number := decimalNumber digits
  -- Far outside the range of the format the power of ten need not be computed.
  if number = 0 || (digits.length : Int) + scale < -400 then some ⟨0, leastExponent⟩
  else if 400 < (digits.length : Int) + scale then none
  else ofRatio? (number * tenPow scale.toNat) (tenPow (-scale).toNat)

end Binary64

end JavaOutline
