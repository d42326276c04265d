import SuiteScript.Number.Shortest

/-! # JSON numbers

    A number without fraction and exponent is a whole number as long as it
    fits into 64 bits, without a sign or with one.  Every other number, and
    minus zero, is a floating-point number: its leading digits, as many as
    fit into 64 bits, are rounded, and the result is multiplied or divided
    by a rounded power of ten.  A number that would be infinite is out of
    range. -/

namespace SuiteScript.Json

/-- The value of a number. -/
inductive Number where
  /-- A whole number that is not negative. -/
  | natural (n : Nat)
  /-- Minus `n`. -/
  | negative (n : Nat)
  /-- A floating-point number, with its sign. -/
  | real (isNegative : Bool) (magnitude : Binary64)
deriving DecidableEq, Repr

/-- The written parts of a number.  The digits of each part stand in
    reverse, the last one first, and a part that is absent has none. -/
structure Numeral where
  /-- Does it start with a minus sign? -/
  isNegative : Bool := false
  /-- Digits in front of the point. -/
  whole : List Nat := []
  /-- Digits after the point. -/
  fraction : List Nat := []
  /-- Does its exponent start with a minus sign? -/
  isExponentNegative : Bool := false
  /-- Digits of the exponent. -/
  exponent : List Nat := []
deriving DecidableEq, Repr

namespace Numeral

/-- One more than the largest whole number. -/
def naturalBound : Nat := UInt64.size

/-- The largest `n` such that minus `n` is a whole number. -/
def negativeLimit : Nat := UInt64.size / 2

/-- Appends digits, the first one first, to `n` as long as the result stays below the bound, and
    counts the digits that are left. -/
def absorb (n : Nat) : List Nat → Nat × Nat
  | [] => (n, 0)
  | d :: rest =>
    if 10 * n + d < naturalBound then absorb (10 * n + d) rest else (n, rest.length + 1)

/-- Ten to the power `n`, rounded. -/
def powerOfTen (n : Nat) : Binary64 := (Binary64.ofRatio (Nat.pow 10 n) 1).getD .zero

/-- The largest power of ten that is in range. -/
def maxPower : Nat := 308

/-- `x / 10 ^ n`.  Beyond the largest power the division is done twice, and
    beyond its square nothing is left. -/
def shrink (x : Binary64) (n : Nat) : Option Binary64 :=
  if n ≤ maxPower then x.div (powerOfTen n)
  else if n ≤ 2 * maxPower then do
    let y ← x.div (powerOfTen maxPower)
    y.div (powerOfTen (n - maxPower))
  else some .zero

/-- `x * 10 ^ n`, unless it is out of range. -/
def grow (x : Binary64) (n : Nat) : Option Binary64 :=
  if x.significand = 0 then some .zero
  else if n ≤ maxPower then x.mul (powerOfTen n)
  else none

/-- `significand * 10 ^ exponent`, unless it is out of range. -/
def scale (significand : Nat) (exponent : Int) : Option Binary64 := do
  let x ← Binary64.ofRatio significand 1
  if 0 ≤ exponent then grow x exponent.toNat else shrink x (-exponent).toNat

/-- The written exponent. -/
def exponentValue (n : Numeral) : Int :=
  let magnitude : Nat := n.exponent.foldr (fun d rest => d + 10 * rest) 0
  if n.isExponentNegative then -magnitude else magnitude

/-- The numeral as a floating-point number. -/
def toReal (n : Numeral) : Option Number := do
  let (whole, lostWhole) := absorb 0 n.whole.reverse
  let (significand, lostFraction) := absorb whole n.fraction.reverse
  let exponent : Int := lostWhole - (n.fraction.length - lostFraction : Nat) + n.exponentValue
  return .real n.isNegative (← scale significand exponent)

/-- The value of a numeral, unless it is out of range. -/
def value (n : Numeral) : Option Number :=
  if n.fraction.isEmpty && n.exponent.isEmpty then
    match absorb 0 n.whole.reverse with
    | (m, 0) =>
      if !n.isNegative then some (.natural m)
      else if 0 < m ∧ m ≤ negativeLimit then some (.negative m)
      else n.toReal
    | _ => n.toReal
  else n.toReal

end Numeral

namespace Number

/-- Up to 16 digits in front of the point and up to four zeros after it are
    written out; beyond that an exponent is used. -/
def style : DecimalNotation := ⟨16, 4⟩

/-- The number as text. -/
def render : Number → String
  | natural n => toString n
  | negative n => "-" ++ toString n
  | real isNegative magnitude =>
    (if isNegative then "-" else "") ++ style.render magnitude.shortest

end Number

end SuiteScript.Json
