/-!
# Double-precision numbers

Recorded times and floating initial values are IEEE 754 binary64 numbers.  The
library keeps the 64 bits themselves, so that equality is equality of bits and
the order, the finiteness test and the rounding of an exact quotient are plain
integer functions.

A magnitude code below `2 ^ 52` stands for that many units of `2 ^ (-1074)`;
every further block of `2 ^ 52` codes doubles the unit.  Codes are therefore in
the order of the numbers they stand for, and `infinityCode` is the first code
that stands for no finite number.
-/

namespace KernelTuning

/-- A double-precision number, given by its 64 bits. -/
structure Binary64 where
  bits : UInt64
  deriving DecidableEq, Inhabited, Repr

namespace Binary64

/-- The codes in a block, `2 ^ 52`. -/
def blockSize : Nat := 0x10000000000000

/-- The number of magnitude codes, `2 ^ 63`; the sign bit stands above them. -/
def codeCount : Nat := 0x8000000000000000

/-- The code of an infinite magnitude; larger codes are not numbers. -/
def infinityCode : Nat := 2047 * blockSize

/-- The number with a given sign and magnitude code. -/
def ofCode (negative : Bool) (code : Nat) : Binary64 :=
  ⟨UInt64.ofNat (code % codeCount + if negative then codeCount else 0)⟩

/-- Whether the sign bit is set, which it also is for the negative zero. -/
def negative (x : Binary64) : Bool :=
  decide (codeCount ≤ x.bits.toNat)

/-- The exponent and fraction bits read as one number. -/
def code (x : Binary64) : Nat :=
  x.bits.toNat % codeCount

/-- Whether the number is neither infinite nor undefined. -/
def isFinite (x : Binary64) : Bool :=
  decide (x.code < infinityCode)

/-- Whether the bits stand for no number, not even an infinite one. -/
def isNaN (x : Binary64) : Bool :=
  decide (infinityCode < x.code)

/-- The place of a number on the line; the two zeros share theirs. -/
def rank (x : Binary64) : Int :=
  if x.negative then -(x.code : Int) else x.code

/-- The numerical order, false as soon as one side is not a number. -/
def lt (x y : Binary64) : Bool :=
  !x.isNaN && !y.isNaN && decide (x.rank < y.rank)

instance : LT Binary64 := ⟨fun x y => lt x y = true⟩

instance (x y : Binary64) : Decidable (x < y) :=
  inferInstanceAs (Decidable (lt x y = true))

/-- The size of a finite number in units of `2 ^ (-1074)`. -/
def units (code : Nat) : Nat :=
  if code < blockSize then code
  else (blockSize + code % blockSize) <<< (code / blockSize - 1)

/-- An exact quotient rounded to the nearest integer, a half to the even one. -/
def roundHalfEven (numerator denominator : Nat) : Nat :=
  let quotient := numerator / denominator
  let remainder := numerator % denominator
  if 2 * remainder < denominator then quotient
  else if denominator < 2 * remainder then quotient + 1
  else quotient + quotient % 2

/-- The magnitude code nearest to an exact quotient, a tie going to the even
code.  `shift` is the number of places by which the unit has to grow for the
significand to fit 53 bits; a significand that rounds up to `2 ^ 53` carries
into the next block of codes by itself. -/
def nearestCode (numerator denominator : Nat) : Nat :=
  let scaled := numerator <<< 1074
  let shift := (scaled / denominator).log2 - 52
  min infinityCode
    (shift * blockSize + roundHalfEven scaled (denominator <<< shift))

/-- The number nearest to `± numerator / denominator`, infinite when that
exceeds every finite number. -/
def ofRatio (negative : Bool) (numerator denominator : Nat) : Binary64 :=
  ofCode negative (nearestCode numerator denominator)

/-- The number nearest to an integer. -/
def ofInt (value : Int) : Binary64 :=
  ofRatio (decide (value < 0)) value.natAbs 1

/-- The correctly rounded quotient of two finite numbers; the divisor is not
zero. -/
def quotient (x y : Binary64) : Binary64 :=
  ofRatio (x.negative != y.negative) (units x.code) (units y.code)

/-- The correctly rounded product of two finite numbers. -/
def product (x y : Binary64) : Binary64 :=
  ofRatio (x.negative != y.negative) (units x.code * units y.code) (1 <<< 2148)

/-- The positive zero. -/
def zero : Binary64 := ⟨0⟩

/-- The positive infinite number. -/
def infinity : Binary64 := ofCode false infinityCode

/-- The machine number with these bits. -/
def toFloat (x : Binary64) : Float :=
  Float.ofBits x.bits

/-- The bits of a machine number. -/
def ofFloat (x : Float) : Binary64 :=
  ⟨x.toBits⟩

theorem lt_irrefl (x : Binary64) : ¬ x < x := by
  intro less
  have order : lt x x = true := less
  simp [lt] at order

theorem lt_trans {x y z : Binary64} (first : x < y) (second : y < z) : x < z := by
  have firstOrder : lt x y = true := first
  have secondOrder : lt y z = true := second
  simp only [lt, Bool.and_eq_true, decide_eq_true_eq] at firstOrder secondOrder
  have order : lt x z = true := by
    simp only [lt, Bool.and_eq_true, decide_eq_true_eq]
    exact ⟨⟨firstOrder.1.1, secondOrder.1.2⟩, by omega⟩
  exact order

theorem isNaN_eq_false_of_isFinite {x : Binary64} (finite : x.isFinite = true) :
    x.isNaN = false := by
  simp only [isFinite, decide_eq_true_eq] at finite
  simp only [isNaN, decide_eq_false_iff_not]
  omega

/-- Between finite numbers the order is that of their places on the line. -/
theorem lt_iff_rank_lt
    {x y : Binary64} (left : x.isFinite = true) (right : y.isFinite = true) :
    x < y ↔ x.rank < y.rank := by
  change lt x y = true ↔ _
  simp [lt, isNaN_eq_false_of_isFinite left, isNaN_eq_false_of_isFinite right]

end Binary64

end KernelTuning
