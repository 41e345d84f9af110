import KernelTuning.Word
import Mathlib.Algebra.Group.Nat.Defs
import Mathlib.Data.Nat.Log

/-!
# Padding to a power of two

Extents are padded by looking at the highest bit of the predecessor.  That finds the
least power of two that is not smaller, cut off at the largest word.
-/

namespace KernelTuning.Word

/-- The least power of two that is not smaller than an extent, or the largest word
where that power does not fit. -/
def nextPower (extent : UInt64) : Nat :=
  min (2 ^ Nat.clog 2 extent.toNat) (2 ^ 64 - 1)

theorem ceilPowerOfTwo_eq (value : Nat) :
    ceilPowerOfTwo value = 2 ^ Nat.clog 2 value := by
  unfold ceilPowerOfTwo
  split
  · rename_i small
    rw [Nat.clog_of_right_le_one small, Nat.pow_zero]
  · rename_i large
    have nonzero : value - 1 ≠ 0 := by omega
    have upper : value ≤ 2 ^ ((value - 1).log2 + 1) := by
      have above : value - 1 < 2 ^ ((value - 1).log2 + 1) := Nat.lt_log2_self
      omega
    have lower : 2 ^ (value - 1).log2 < value := by
      have below : 2 ^ (value - 1).log2 ≤ value - 1 := Nat.log2_self_le nonzero
      omega
    have exponent : Nat.clog 2 value = (value - 1).log2 + 1 :=
      Nat.le_antisymm
        ((Nat.clog_le_iff_le_pow (by decide)).mpr upper)
        ((Nat.lt_clog_iff_pow_lt (by decide)).mpr lower)
    rw [exponent, Nat.one_shiftLeft]

theorem paddedPower_eq (extent : UInt64) :
    paddedPower extent.toNat = nextPower extent := by
  have largest : max64 = 2 ^ 64 - 1 := rfl
  unfold paddedPower nextPower
  rw [ceilPowerOfTwo_eq, largest]
  split <;> omega

end KernelTuning.Word
