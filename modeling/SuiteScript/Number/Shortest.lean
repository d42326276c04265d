import SuiteScript.Number.Binary64

/-! # The shortest decimal of a floating-point number

    Every number is shown with the fewest digits that still round to it, and
    among those with the digits nearest to it.  The decimals that round to a
    number form an interval, which holds its ends exactly when the
    significand is even.  So the coarsest decimal grid with a point in the
    interval is looked for, and of its two points next to the number the
    nearer one is taken, the even one if both are equally near. -/

namespace SuiteScript

/-- The number `digits * 10 ^ exponent`. -/
structure Decimal where
  /-- The digits, as a whole number. -/
  digits : Nat
  /-- The power of ten by which the digits are multiplied. -/
  exponent : Int
deriving DecidableEq, Repr

/-- The decimals that round to one number, over a common denominator. -/
structure RoundingInterval where
  /-- Half way to the neighbour below. -/
  low : Nat
  /-- The number itself. -/
  value : Nat
  /-- Half way to the neighbour above. -/
  high : Nat
  /-- What the other three are divided by. -/
  denominator : Nat
  /-- Do the two ends round to the number as well? -/
  closed : Bool

namespace RoundingInterval

/-- The interval of a number other than zero.  It reaches half way to both
    neighbours; the one below is nearer at a power of two. -/
def ofBinary64 (x : Binary64) : RoundingInterval :=
  let up := Nat.pow 2 x.exponent.toNat
  -- All three points are counted in quarters of the last place.
  let low :=
    if x.significand = Binary64.implicitBit ∧ Binary64.minExponent < x.exponent then
      4 * x.significand - 1
    else 4 * x.significand - 2
  ⟨low * up, 4 * x.significand * up, (4 * x.significand + 2) * up,
    4 * Nat.pow 2 (-x.exponent).toNat, x.significand % 2 = 0⟩

/-- Is `digits` steps of `step / unit` inside the interval? -/
def holds (i : RoundingInterval) (digits step unit : Nat) : Bool :=
  let point := digits * step * i.denominator
  if i.closed then i.low * unit ≤ point && point ≤ i.high * unit
  else i.low * unit < point && point < i.high * unit

/-- The point of the grid `10 ^ exponent` that lies in the interval nearest
    to the number. -/
def nearestOn (i : RoundingInterval) (exponent : Int) : Option Decimal :=
  let step := Nat.pow 10 exponent.toNat
  let unit := Nat.pow 10 (-exponent).toNat
  let below := i.value * unit / (step * i.denominator)
  let rest := 2 * (i.value * unit % (step * i.denominator))
  let lowerIsNearer := rest < step * i.denominator ∨
    (rest = step * i.denominator ∧ below % 2 = 0)
  match i.holds below step unit, i.holds (below + 1) step unit with
  | true, true => some ⟨if lowerIsNearer then below else below + 1, exponent⟩
  | true, false => some ⟨below, exponent⟩
  | false, true => some ⟨below + 1, exponent⟩
  | false, false => none

end RoundingInterval

/-- The largest power of ten worth trying. -/
def Decimal.coarsest : Int := 309

/-- How many powers of ten, from the coarsest down, hold every number. -/
def Decimal.gridCount : Nat := 634

/-- The shortest decimal that rounds to `x`. -/
def Binary64.shortest (x : Binary64) : Decimal :=
  if x.significand = 0 then ⟨0, 0⟩
  else
    let interval := RoundingInterval.ofBinary64 x
    ((List.range Decimal.gridCount).findSome? fun (n : Nat) =>
      interval.nearestOn (Decimal.coarsest - n)).getD ⟨0, 0⟩

/-! ### Notation -/

/-- How a decimal is written. -/
structure DecimalNotation where
  /-- The largest count of digits in front of the point. -/
  mostWhole : Int
  /-- The largest count of zeros right after the point. -/
  mostZeros : Int

namespace DecimalNotation

/-- A row of zeros. -/
def zeros (n : Nat) : List Char := List.replicate n '0'

/-- An exponent, with its sign in any case. -/
def exponentMark (n : Int) : List Char :=
  'e' :: (if n < 0 then '-' else '+') :: Nat.toDigits 10 n.natAbs

/-- Writes `d` with a point if it is neither too long nor too close to zero,
    else with an exponent. -/
def render (style : DecimalNotation) (d : Decimal) : String :=
  let ds := Nat.toDigits 10 d.digits
  -- The number is `0.ds` times ten to the power `point`.
  let point : Int := ds.length + d.exponent
  String.ofList <|
    if 0 ≤ d.exponent ∧ point ≤ style.mostWhole then
      ds ++ zeros d.exponent.toNat ++ ['.', '0']
    else if 0 < point ∧ point ≤ style.mostWhole then
      ds.take point.toNat ++ '.' :: ds.drop point.toNat
    else if point ≤ 0 ∧ -point ≤ style.mostZeros then
      ['0', '.'] ++ zeros (-point).toNat ++ ds
    else match ds with
      | [] => []
      | [c] => c :: exponentMark (point - 1)
      | c :: rest => c :: '.' :: (rest ++ exponentMark (point - 1))

end DecimalNotation

end SuiteScript
