import KernelTuning.Binary64

/-!
# Decimal numbers

A decimal is a significand and a power of ten, and stands for the exact product
of the two.  Its nearest double-precision number rounds that exact value once.
-/

namespace KernelTuning

/-- The number `significand * 10 ^ exponent`. -/
structure Decimal where
  significand : Nat
  exponent : Int
  deriving DecidableEq, Inhabited, Repr

namespace Decimal

/-- A power of ten. -/
def tenPower (exponent : Nat) : Nat :=
  Nat.pow 10 exponent

/-- The decimal digits of the significand, without leading zeros. -/
def digits (decimal : Decimal) : List Char :=
  Nat.toDigits 10 decimal.significand

/-- The exponent of the leading digit. -/
def leadingExponent (decimal : Decimal) : Int :=
  decimal.exponent + decimal.digits.length - 1

/-- The magnitude code nearest to a decimal.  A decimal of at least `10 ^ 310`
is beyond every finite number and one below `10 ^ (-330)` nearest to zero, so no
power of ten is formed for those. -/
def nearestCode (decimal : Decimal) : Nat :=
  if decimal.significand = 0 then 0
  else if 310 ≤ decimal.leadingExponent then Binary64.infinityCode
  else if decimal.leadingExponent < -330 then 0
  else
    match decimal.exponent with
    | .ofNat power =>
        Binary64.nearestCode (decimal.significand * tenPower power) 1
    | .negSucc power =>
        Binary64.nearestCode decimal.significand (tenPower (power + 1))

end Decimal

end KernelTuning
