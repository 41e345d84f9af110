import KernelTuning.Decimal.Basic

/-!
# Laying out a decimal

A decimal is written positionally while the exponent of its leading digit stays
inside a window, and otherwise as one leading digit, a fraction and a signed
exponent.  The window belongs to the format that is written.
-/

namespace KernelTuning

/-- The exponents of the leading digit for which a number is written
positionally. -/
structure PositionalWindow where
  lowest : Int
  highest : Int
  deriving DecidableEq

namespace Decimal

/-- Positional notation; there is always a digit on both sides of the point. -/
def positional (decimal : Decimal) : List Char :=
  let digits := decimal.digits
  let leading := decimal.leadingExponent
  if 0 ≤ decimal.exponent then
    digits ++ List.replicate decimal.exponent.toNat '0' ++ ['.', '0']
  else if 0 ≤ leading then
    let whole := (leading + 1).toNat
    digits.take whole ++ '.' :: digits.drop whole
  else
    '0' :: '.' :: List.replicate (-leading - 1).toNat '0' ++ digits

/-- A leading digit, the other digits after a point if there are any, and the
exponent with its sign. -/
def scientific (decimal : Decimal) : List Char :=
  let leading := decimal.leadingExponent
  let significand :=
    match decimal.digits with
    | [] => []
    | [digit] => [digit]
    | digit :: fraction => digit :: '.' :: fraction
  significand ++ 'e' :: (if leading < 0 then '-' else '+')
    :: Nat.toDigits 10 leading.natAbs

/-- The text of a decimal whose positional form is used inside `window`. -/
def layout (window : PositionalWindow) (decimal : Decimal) : List Char :=
  if window.lowest ≤ decimal.leadingExponent
      ∧ decimal.leadingExponent ≤ window.highest then
    decimal.positional
  else
    decimal.scientific

end Decimal

end KernelTuning
