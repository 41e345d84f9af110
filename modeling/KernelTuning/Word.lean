/-!
# Word arithmetic

Knobs and dimensions are machine words.  Their products are computed here on
natural numbers, with the bound of the word made explicit: a product may overflow,
which ends the computation, be missing, or stick at the largest word.
-/

namespace KernelTuning

/-- An arithmetic fault.  It is not an answer to the question that was asked, so no
handler of ordinary failures takes it for one. -/
inductive Overflow where
  | multiplication
  deriving DecidableEq, Repr

namespace Overflow

/-- The report of a fault. -/
def message : Overflow → String
  | .multiplication => "attempt to multiply with overflow"

end Overflow

/-- The result of a computation that may run into an arithmetic fault. -/
abbrev Checked := Except Overflow

namespace Word

/-- The largest 64-bit word. -/
def max64 : Nat := UInt64.size - 1

/-- A product that has to fit a kind of word, of which there are `size`. -/
def product (size left right : Nat) : Checked Nat :=
  if left * right < size then .ok (left * right) else .error .multiplication

/-- A 64-bit product, absent when it does not fit. -/
def product? (left right : Nat) : Option Nat :=
  if left * right ≤ max64 then some (left * right) else none

/-- A 64-bit sum, absent when it does not fit. -/
def sum? (left right : Nat) : Option Nat :=
  if left + right ≤ max64 then some (left + right) else none

/-- A 64-bit product that sticks at the largest word. -/
def saturatingProduct (left right : Nat) : Nat :=
  min (left * right) max64

/-- The least power of two that is not smaller than `value`. -/
def ceilPowerOfTwo (value : Nat) : Nat :=
  if value ≤ 1 then 1 else 1 <<< ((value - 1).log2 + 1)

/-- The least power of two that is not smaller than `value`, or the largest word
when that power does not fit. -/
def paddedPower (value : Nat) : Nat :=
  if ceilPowerOfTwo value ≤ max64 then ceilPowerOfTwo value else max64

end Word

end KernelTuning
