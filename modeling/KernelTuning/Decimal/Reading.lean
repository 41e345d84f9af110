import KernelTuning.Decimal.Basic

/-!
# Reading decimals

The digits of a number are collected in a 64-bit word, as many of them as fit,
and the word is rounded to a double-precision number.  That number is multiplied
or divided by a power of ten, which is rounded to a double-precision number too.

Every step rounds to nearest.  The result is the number nearest to the decimal
as long as the word is at most `2 ^ 53` and the power at most `10 ^ 22`, for then
both are exact and one rounding remains; otherwise it may be a neighbour of the
nearest number.
-/

namespace KernelTuning

namespace Decimal

/-- The value of a digit. -/
def digitValue (digit : Char) : Nat :=
  digit.toNat - '0'.toNat

/-- Appends digits to a significand up to the first digit with which it would no
longer fit a 64-bit word; that digit and those behind it are left over. -/
def collect (significand : Nat) : List Char → Nat × List Char
  | [] => (significand, [])
  | digit :: rest =>
      let longer := 10 * significand + digitValue digit
      if longer < UInt64.size then collect longer rest
      else (significand, digit :: rest)

/-- The decimal collected from the digits before and behind a point.  A digit
left over before the point still counts as a place, one behind it as nothing. -/
def ofDigits (whole fraction : List Char) (exponent : Int) : Decimal :=
  let (wholePart, dropped) := collect 0 whole
  let (significand, ignored) := collect wholePart fraction
  ⟨significand, exponent + dropped.length + ignored.length - fraction.length⟩

/-- The exponent of the greatest power of ten that is a finite number. -/
def greatestPower : Nat := 308

/-- A power of ten as a double-precision number. -/
def roundedTenPower (places : Nat) : Binary64 :=
  .ofRatio false (tenPower places) 1

/-- A positive number or zero with its point moved to the right. -/
def raised (value : Binary64) (places : Nat) : Binary64 :=
  if places ≤ greatestPower then value.product (roundedTenPower places)
  else if value = .zero then .zero
  else .infinity

/-- A positive number or zero with its point moved to the left, in two steps if
one power of ten cannot express the move.  The second step is at most as long as
the first, which is enough to bring every 64-bit word to zero. -/
def lowered (value : Binary64) (places : Nat) : Binary64 :=
  if places ≤ greatestPower then value.quotient (roundedTenPower places)
  else
    let remaining := min (places - greatestPower) greatestPower
    (value.quotient (roundedTenPower greatestPower)).quotient (roundedTenPower remaining)

/-- The number that a decimal with a 64-bit significand is read as. -/
def scaled (decimal : Decimal) : Binary64 :=
  let word := Binary64.ofInt decimal.significand
  match decimal.exponent with
  | .ofNat places => raised word places
  | .negSucc places => lowered word (places + 1)

/-- The number read with a sign, which zero keeps. -/
def toBinary64 (negative : Bool) (decimal : Decimal) : Binary64 :=
  .ofCode negative decimal.scaled.code

/-- Digits never make a significand smaller. -/
theorem le_ofDigitChars (significand : Nat) (digits : List Char) :
    significand ≤ Nat.ofDigitChars 10 digits significand := by
  induction digits generalizing significand with
  | nil => simp
  | cons digit rest ih =>
      rw [Nat.ofDigitChars_cons]
      have further := ih (10 * significand + digitValue digit)
      simp only [digitValue] at further
      omega

/-- Digits that fit altogether are all collected. -/
theorem collect_eq_of_lt
    {significand : Nat} {digits : List Char}
    (fits : Nat.ofDigitChars 10 digits significand < UInt64.size) :
    collect significand digits = (Nat.ofDigitChars 10 digits significand, []) := by
  induction digits generalizing significand with
  | nil => simp [collect]
  | cons digit rest ih =>
      rw [Nat.ofDigitChars_cons] at fits ⊢
      have longerFits := Nat.lt_of_le_of_lt (le_ofDigitChars _ rest) fits
      rw [collect, digitValue, if_pos longerFits]
      exact ih fits

end Decimal

end KernelTuning
