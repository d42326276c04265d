/-! # Binary floating-point numbers of 64 bits

    The non-negative finite numbers with a significand of 53 bits, in exact
    arithmetic.  A quotient is rounded to the nearest such number, an exact
    half to the even significand; products and quotients of two numbers are
    rounded the same way. -/

namespace SuiteScript

/-- The number `significand * 2 ^ exponent`. -/
structure Binary64 where
  /-- Below 2 ^ 53, and at least 2 ^ 52 unless the exponent is the smallest. -/
  significand : Nat
  /-- The power of two by which the significand is multiplied. -/
  exponent : Int
deriving DecidableEq, Repr

namespace Binary64

/-- The smallest exponent, that of numbers close to zero. -/
def minExponent : Int := -1074

/-- The largest exponent. -/
def maxExponent : Int := 971

/-- The highest bit of a significand, which all but the smallest numbers
    have. -/
def implicitBit : Nat := Nat.pow 2 52

/-- The number zero. -/
def zero : Binary64 := ⟨0, minExponent⟩

/-- `num / den` to the nearest whole number, a half to the even one. -/
def roundHalfEven (num den : Nat) : Nat :=
  let low := num / den
  let twice := 2 * (num % den)
  if twice < den then low
  else if den < twice then low + 1
  else if low % 2 = 0 then low else low + 1

/-- `num / den / 2 ^ exponent` as a quotient. -/
def scaled (num den : Nat) (exponent : Int) : Nat × Nat :=
  (num * Nat.pow 2 (-exponent).toNat, den * Nat.pow 2 exponent.toNat)

/-- The exponent at which `num / den` has a significand of 53 bits, or the
    smallest one if that is larger. -/
def exponentOf (num den : Nat) : Int :=
  -- The logarithms are rounded down, so the estimate may be one too low.
  let estimate : Int := Nat.log2 num - Nat.log2 den - 53
  let (n, d) := scaled num den estimate
  max minExponent (if n / d < 2 * implicitBit then estimate else estimate + 1)

/-- The number nearest to `num / den`, unless it is too large. -/
def ofRatio (num den : Nat) : Option Binary64 :=
  if num = 0 then some zero
  else
    let exponent := exponentOf num den
    let (n, d) := scaled num den exponent
    let rounded := roundHalfEven n d
    -- Rounding up can reach the next power of two.
    let result : Binary64 :=
      if rounded = 2 * implicitBit then ⟨implicitBit, exponent + 1⟩ else ⟨rounded, exponent⟩
    if result.exponent ≤ maxExponent then some result else none

/-- The number as a quotient of whole numbers. -/
def ratio (x : Binary64) : Nat × Nat :=
  (x.significand * Nat.pow 2 x.exponent.toNat, Nat.pow 2 (-x.exponent).toNat)

/-- The product, unless it is too large. -/
def mul (x y : Binary64) : Option Binary64 :=
  ofRatio (x.ratio.1 * y.ratio.1) (x.ratio.2 * y.ratio.2)

/-- The quotient, unless it is too large. -/
def div (x y : Binary64) : Option Binary64 :=
  ofRatio (x.ratio.1 * y.ratio.2) (x.ratio.2 * y.ratio.1)

end Binary64

end SuiteScript
