import KernelTuning.Decimal.Basic

/-!
# Shortest decimals

A decimal determines the double-precision number that is nearest to it.  The
decimal written for a number has the fewest digits that determine the number;
among those of equal length it is the nearest one.

For each length there are only two decimals to look at, the neighbours of the
number on the grid of that length: a decimal that determines the number lies in
the interval of values rounding to it, and that interval contains the number
itself.
-/

namespace KernelTuning

namespace Decimal

/-- The two neighbours of a value on a decimal grid, and the exact remainder
that tells how far the value lies above the lower one. -/
structure Neighbours where
  lower : Decimal
  upper : Decimal
  /-- The value's distance from the lower neighbour, out of `width`. -/
  offset : Nat
  width : Nat

/-- The exponent of the leading digit of a positive value given by its
magnitude code.  The factor `10 ^ 400` makes every such value exceed one. -/
def leadingExponentOfCode (code : Nat) : Int :=
  let scaled := (Binary64.units code * tenPower 400) >>> 1074
  (Nat.toDigits 10 scaled).length - 401

/-- The neighbours of a positive value among the decimals of `count` digits. -/
def neighbours (code count : Nat) : Neighbours :=
  let exponent := leadingExponentOfCode code - (count : Int) + 1
  let numerator := Binary64.units code * tenPower (-exponent).toNat
  let width := tenPower exponent.toNat <<< 1074
  let lower := numerator / width
  { lower := ⟨lower, exponent⟩
    upper :=
      if lower + 1 = tenPower count then ⟨tenPower (count - 1), exponent + 1⟩
      else ⟨lower + 1, exponent⟩
    offset := numerator % width
    width := width }

/-- Whether the upper neighbour is the nearer one, a tie going to the even
significand. -/
def Neighbours.prefersUpper (pair : Neighbours) : Bool :=
  pair.width < 2 * pair.offset ||
    (pair.width == 2 * pair.offset && pair.lower.significand % 2 == 1)

/-- The nearest neighbour of `count` digits that determines the number, if one
does. -/
def determining? (code count : Nat) : Option Decimal :=
  let pair := neighbours code count
  let candidates :=
    if pair.prefersUpper then [pair.upper, pair.lower]
    else [pair.lower, pair.upper]
  candidates.find? fun decimal => decimal.nearestCode == code

/-- Every digit of a finite value: a multiple of `2 ^ (-1074)` is one of
`10 ^ (-1074)`. -/
def exact (code : Nat) : Decimal :=
  ⟨Binary64.units code * Nat.pow 5 1074, -1074⟩

/-- The decimal written for a finite magnitude.  Seventeen digits are enough for
every double-precision number, so the exact expansion stands last only for the
law that the result determines the number. -/
def shortest (code : Nat) : Decimal :=
  if code = 0 then ⟨0, 0⟩
  else
    ((List.range' 1 17).findSome? (determining? code)).getD (exact code)

end Decimal

end KernelTuning
