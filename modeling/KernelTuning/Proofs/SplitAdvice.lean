import KernelTuning.Proofs.RoundingOrder
import KernelTuning.Proofs.TuningSpace
import Mathlib.Algebra.Order.Round
import Mathlib.Data.Rat.Floor

/-!
# The advice on splitting

The advisor compares rounded quotients of numbers that may have stuck at the largest word.
Neither matters.  A grid that leaves units idle has so few tiles that all its numbers but the
reduction are exact, and a reduction with too many bits is rounded on the far side of every
threshold.  The advice is therefore a rule on unbounded integers, and so are the factors that
are offered for a problem.
-/

namespace KernelTuning.SplitK

open Binary64

/-! ## The rule -/

/-- Output tiles of all products together, in unbounded numbers. -/
def tileTotal (g m n : Int) : Int := g * ⌈(m : ℚ) / 64⌉ * ⌈(n : ℚ) / 64⌉

/-- Nothing to compute, no unit left idle, or a reduction that is short. -/
def Pointless (g m n k computeUnits : Int) : Prop :=
  (g ≤ 0 ∨ m ≤ 0 ∨ n ≤ 0 ∨ k ≤ 0 ∨ computeUnits ≤ 0) ∨
    computeUnits ≤ tileTotal g m n ∨ k < 1024 ∨ k < max m n

/-- A long reduction that leaves more than half of the units idle. -/
def Promising (g m n k computeUnits : Int) : Prop :=
  4 * max m n ≤ k ∧ 2 * tileTotal g m n < computeUnits

instance (g m n k computeUnits : Int) : Decidable (Pointless g m n k computeUnits) :=
  inferInstanceAs (Decidable (_ ∨ _))

instance (g m n k computeUnits : Int) : Decidable (Promising g m n k computeUnits) :=
  inferInstanceAs (Decidable (_ ∧ _))

/-- The advice in unbounded integers. -/
def rule (g m n k computeUnits : Int) : Likelihood :=
  if Pointless g m n k computeUnits then .never
  else if Promising g m n k computeUnits then .likely
  else .possible

/-! ## Tiles -/

private theorem ceil_eq_tiles (extent : Nat) :
    ⌈((extent : Int) : ℚ) / 64⌉ = (tiles extent : Int) := by
  have exact : tiles extent = (extent + 63) / 64 := rfl
  rw [exact, Int.ceil_eq_iff]
  constructor
  · rw [lt_div_iff₀ (by norm_num)]
    have bound : ((((extent + 63) / 64 : Nat) : Int) - 1) * 64 < extent := by omega
    exact_mod_cast bound
  · rw [div_le_iff₀ (by norm_num)]
    have bound : (extent : Int) ≤ ((extent + 63) / 64 : Nat) * 64 := by omega
    exact_mod_cast bound

theorem tileTotal_natCast (g m n : Nat) :
    tileTotal g m n = ((g * tiles m * tiles n : Nat) : Int) := by
  rw [tileTotal, ceil_eq_tiles, ceil_eq_tiles]
  push_cast
  rfl

section Tiles

variable {g m n computeUnits : Nat}

theorem tiles_pos {extent : Nat} (positive : 0 < extent) : 0 < tiles extent := by
  have exact : tiles extent = (extent + 63) / 64 := rfl
  omega

private theorem le_mul_tiles (extent : Nat) : extent ≤ 64 * tiles extent := by
  have exact : tiles extent = (extent + 63) / 64 := rfl
  omega

/-- The count sticks only where it is too large anyway. -/
theorem tileCount_eq (positive : 0 < n) (room : computeUnits ≤ largest) :
    (tileCount g m n < computeUnits ↔ g * tiles m * tiles n < computeUnits) ∧
      (g * tiles m * tiles n < computeUnits → tileCount g m n = g * tiles m * tiles n) := by
  have columns : 0 < tiles n := tiles_pos positive
  unfold tileCount saturatingProduct
  rw [Int.toNat_natCast]
  rcases Nat.le_total (g * tiles m) largest with fits | exceeds
  · rw [Nat.min_eq_left fits]
    omega
  · have stuck : largest ≤ largest * tiles n := Nat.le_mul_of_pos_right _ columns
    have exact : g * tiles m ≤ g * tiles m * tiles n := Nat.le_mul_of_pos_right _ columns
    rw [Nat.min_eq_right exceeds]
    omega

/-- A grid of few tiles has short sides. -/
theorem sides_le (some : 0 < g) (rows : 0 < m) (columns : 0 < n)
    (few : g * tiles m * tiles n < computeUnits) : max m n ≤ 64 * computeUnits := by
  have tilesDown : tiles m ≤ g * tiles m * tiles n :=
    (Nat.le_mul_of_pos_left _ some).trans (Nat.le_mul_of_pos_right _ (tiles_pos columns))
  have tilesAcross : tiles n ≤ g * tiles m * tiles n :=
    Nat.le_mul_of_pos_left _ (Nat.mul_pos some (tiles_pos rows))
  have down := le_mul_tiles m
  have across := le_mul_tiles n
  omega

end Tiles

/-! ## The advice -/

section Advice

variable {g m n k computeUnits : Nat} (some : 0 < g) (rows : 0 < m) (columns : 0 < n)
  (units : 0 < computeUnits) (few : computeUnits < 2 ^ 32)

include columns units few

private theorem occupancy_lt_one_iff :
    (ofInt (tileCount g m n)).quotient (ofInt computeUnits) < ofInt 1 ↔
      g * tiles m * tiles n < computeUnits := by
  have room : computeUnits ≤ largest := few.le.trans (by decide)
  have word : tileCount g m n < 2 ^ 64 := (Nat.min_le_right _ _).trans_lt (by decide)
  have compared := @IsMark.quotient_lt_ofInt_iff 1 _ _ units (by omega) isMark_one word
  rw [Nat.one_mul, (tileCount_eq columns room).1] at compared
  exact compared

private theorem occupancy_lt_half_iff (idle : g * tiles m * tiles n < computeUnits) :
    (ofInt (tileCount g m n)).quotient (ofInt computeUnits) < ofRatio false 1 2 ↔
      2 * (g * tiles m * tiles n) < computeUnits := by
  have room : computeUnits ≤ largest := few.le.trans (by decide)
  rw [(tileCount_eq columns room).2 idle, isMark_half.quotient_lt_iff units (by omega) (by omega),
    Nat.mul_comm _ 2, Nat.one_mul]

include some rows

/-- Where units are left idle, the shorter sides are exact and the reduction may be long. -/
private theorem aspect_lt_iff {threshold : Nat} (mark : IsMark threshold 1) (small : threshold ≤ 4)
    (word : k < 2 ^ 64) (idle : g * tiles m * tiles n < computeUnits) :
    (ofInt k).quotient (ofInt ((max m n : Nat) : Int)) < ofInt threshold ↔
      k < threshold * max m n := by
  have sides := sides_le some rows columns idle
  have positive : 0 < max m n := rows.trans_le (Nat.le_max_left m n)
  have scaled : threshold * max m n ≤ 4 * (64 * computeUnits) := Nat.mul_le_mul small sides
  exact mark.quotient_lt_ofInt_iff positive (by omega) word

theorem ofShape_natCast (depth : 0 < k) (word : k < 2 ^ 64) :
    ofShape g m n k computeUnits = rule g m n k computeUnits := by
  have positive : ¬((g : Int) ≤ 0 ∨ (m : Int) ≤ 0 ∨ (n : Int) ≤ 0 ∨ (k : Int) ≤ 0 ∨
      (computeUnits : Int) ≤ 0) := by omega
  have sides : max (m : Int) n = (max m n : Nat) := by omega
  unfold ofShape rule Pointless Promising shortestReduction
  simp only [positive, if_false, false_or, sides, tileTotal_natCast,
    occupancy_lt_one_iff columns units few]
  by_cases idle : g * tiles m * tiles n < computeUnits
  · have wide := aspect_lt_iff some rows columns units few isMark_one (by decide) word idle
    have narrow := aspect_lt_iff some rows columns units few isMark_four (by decide) word idle
    rw [Nat.one_mul] at wide
    simp only [Nat.cast_one, Nat.cast_ofNat] at wide narrow
    simp only [idle, wide, narrow, occupancy_lt_half_iff columns units few idle, not_true_eq_false,
      false_or]
    generalize g * tiles m * tiles n = total at *
    apply if_congr
    · omega
    · rfl
    · apply if_congr
      · omega
      · rfl
      · rfl
  · have saturated : (computeUnits : Int) ≤ (g * tiles m * tiles n : Nat) := by omega
    rw [if_pos (.inl idle), if_pos (.inl saturated)]

end Advice

theorem ofShape_eq_rule {g m n k computeUnits : Int} (few : computeUnits < 2 ^ 32)
    (word : k < 2 ^ 63) : ofShape g m n k computeUnits = rule g m n k computeUnits := by
  by_cases empty : g ≤ 0 ∨ m ≤ 0 ∨ n ≤ 0 ∨ k ≤ 0 ∨ computeUnits ≤ 0
  · rw [ofShape, if_pos empty, rule, if_pos (.inl empty)]
  · lift g to Nat using by omega
    lift m to Nat using by omega
    lift n to Nat using by omega
    lift k to Nat using by omega
    lift computeUnits to Nat using by omega
    apply ofShape_natCast <;> omega

theorem predict_eq_rule {g m n k computeUnits : Int64} {level : Level} (slow : level ≠ .quick)
    (few : computeUnits.toInt < 2 ^ 32) :
    predict g m n k computeUnits level =
      rule g.toInt m.toInt n.toInt k.toInt computeUnits.toInt := by
  rw [predict, if_neg slow]
  exact ofShape_eq_rule few k.toInt_lt

/-! ## The factors of a problem -/

section Clamped

variable {g m n k computeUnits : Nat}

private theorem tiles_le_tiles {extent other : Nat} (order : extent ≤ other) :
    tiles extent ≤ tiles other :=
  Nat.div_le_div_right (Nat.add_le_add_right order 63)

private theorem pointless_natCast :
    Pointless g m n k computeUnits ↔
      (g = 0 ∨ m = 0 ∨ n = 0 ∨ k = 0 ∨ computeUnits = 0) ∨
        computeUnits ≤ g * tiles m * tiles n ∨ k < 1024 ∨ k < max m n := by
  unfold Pointless
  rw [tileTotal_natCast]
  generalize g * tiles m * tiles n = total
  omega

/-- Extents that stick at the largest integer have too many tiles with or without it. -/
private theorem total_min_lt_iff (some : 0 < g) (rows : 0 < m) (columns : 0 < n)
    (few : computeUnits < 2 ^ 32) :
    min g largest * tiles (min m largest : Nat) * tiles (min n largest : Nat) < computeUnits ↔
      g * tiles m * tiles n < computeUnits := by
  have wide : 2 ^ 38 < largest := by decide
  constructor
  · intro idle
    have clampedSome : 0 < min g largest := by omega
    have clampedRows : 0 < min m largest := by omega
    have clampedColumns : 0 < min n largest := by omega
    have sides := sides_le clampedSome clampedRows clampedColumns idle
    have products : min g largest ≤
        min g largest * tiles (min m largest : Nat) * tiles (min n largest : Nat) := by
      rw [Nat.mul_assoc]
      apply Nat.le_mul_of_pos_right
      exact Nat.mul_pos (tiles_pos clampedRows) (tiles_pos clampedColumns)
    have sameProducts : min g largest = g := by omega
    have sameRows : min m largest = m := by omega
    have sameColumns : min n largest = n := by omega
    rwa [sameProducts, sameRows, sameColumns] at idle
  · apply Nat.lt_of_le_of_lt
    apply Nat.mul_le_mul
    · exact Nat.mul_le_mul (Nat.min_le_left _ _) (tiles_le_tiles (Nat.min_le_left _ _))
    · exact tiles_le_tiles (Nat.min_le_left _ _)

private theorem pointless_min_iff (few : computeUnits < 2 ^ 32) :
    Pointless (min g largest : Nat) (min m largest : Nat) (min n largest : Nat)
        (min k largest : Nat) computeUnits ↔
      Pointless g m n k computeUnits := by
  have wide : 2 ^ 38 < largest := by decide
  rw [pointless_natCast, pointless_natCast]
  by_cases empty : g = 0 ∨ m = 0 ∨ n = 0
  · omega
  · have some : 0 < g := by omega
    have rows : 0 < m := by omega
    have columns : 0 < n := by omega
    have idle := total_min_lt_iff some rows columns few
    have sides : g * tiles m * tiles n < computeUnits → max m n ≤ 64 * computeUnits :=
      sides_le some rows columns
    generalize g * tiles m * tiles n = total at *
    generalize min g largest * tiles (min m largest : Nat) * tiles (min n largest : Nat) =
      clampedTotal at *
    omega

end Clamped

/-- Splitting is allowed by target, fused operations and level, and the shape asks for it. -/
structure Splits (problem : Problem) (level : Level) : Prop where
  slow : level ≠ .quick
  atomic : problem.target.supportsAtomicAdd problem.outType = true
  distributes : problem.epilogueDistributes = true
  nonempty : 0 < problem.shape.g.toNat ∧ 0 < problem.shape.m.toNat ∧
    0 < problem.shape.n.toNat ∧ 0 < problem.shape.k.toNat ∧ 0 < problem.target.computeUnits.toNat
  idle : tileTotal problem.shape.g.toNat problem.shape.m.toNat problem.shape.n.toNat <
    problem.target.computeUnits.toNat
  long : 1024 ≤ problem.shape.k.toNat
  deep : max problem.shape.m.toNat problem.shape.n.toNat ≤ problem.shape.k.toNat

theorem splits_iff {problem : Problem} {level : Level} :
    Splits problem level ↔
      (level ≠ .quick ∧ problem.target.supportsAtomicAdd problem.outType = true ∧
        problem.epilogueDistributes = true) ∧
      ¬Pointless problem.shape.g.toNat problem.shape.m.toNat problem.shape.n.toNat
        problem.shape.k.toNat problem.target.computeUnits.toNat := by
  have total := tileTotal_natCast problem.shape.g.toNat problem.shape.m.toNat problem.shape.n.toNat
  constructor
  · rintro ⟨slow, atomic, distributes, nonempty, idle, long, deep⟩
    refine ⟨⟨slow, atomic, distributes⟩, ?_⟩
    unfold Pointless
    omega
  · rintro ⟨⟨slow, atomic, distributes⟩, worthwhile⟩
    unfold Pointless at worthwhile
    constructor
    · exact slow
    · exact atomic
    · exact distributes
    all_goals omega

instance (problem : Problem) (level : Level) : Decidable (Splits problem level) :=
  decidable_of_iff _ splits_iff.symm

theorem predict_clamped_eq_never_iff {problem : Problem} {level : Level} (slow : level ≠ .quick) :
    predict (clamp problem.shape.g) (clamp problem.shape.m) (clamp problem.shape.n)
        (clamp problem.shape.k) (Int64.ofNat problem.target.computeUnits.toNat) level = .never ↔
      Pointless problem.shape.g.toNat problem.shape.m.toNat problem.shape.n.toNat
        problem.shape.k.toNat problem.target.computeUnits.toNat := by
  have few : problem.target.computeUnits.toNat < 2 ^ 32 := problem.target.computeUnits.toNat_lt
  have units : (Int64.ofNat problem.target.computeUnits.toNat).toInt =
      problem.target.computeUnits.toNat := Int64.toInt_ofNat_of_lt (by omega)
  have clamped : ∀ dimension : UInt64,
      (clamp dimension).toInt = ((min dimension.toNat largest : Nat) : Int) := by
    intro dimension
    rw [toInt_clamp]
    omega
  rw [predict_eq_rule slow (by omega), units, ← pointless_min_iff few]
  simp only [clamped]
  unfold rule
  split
  · rename_i pointless
    exact iff_of_true rfl pointless
  · rename_i worthwhile
    split <;> exact iff_of_false (by decide) worthwhile

theorem factors_eq_of_splits (problem : Problem) (level : Level) :
    factors problem level = if Splits problem level then offered else [1] := by
  rw [factors_eq]
  by_cases allowed : problem.target.supportsAtomicAdd problem.outType = true ∧
      problem.epilogueDistributes = true
  · rw [if_pos allowed, advised]
    by_cases quick : level = .quick
    · rw [if_pos (.inl quick), if_neg fun splits => splits.slow quick]
    · simp only [quick, false_or, predict_clamped_eq_never_iff quick, splits_iff, allowed,
        not_false_eq_true, true_and, ne_eq, ite_not]
  · rw [if_neg allowed, if_neg fun splits => allowed ⟨splits.atomic, splits.distributes⟩]

/-- The advice at a level that may split is the rule on unbounded integers, for all extents and
for less than `2 ^ 32` units.  All factors are offered exactly where splitting is allowed and
the rule on the unclamped dimensions does not rule it out; otherwise only the factor one. -/
theorem advice_exact :
    (∀ (g m n k computeUnits : Int64) (level : Level), level ≠ .quick →
      computeUnits.toInt < 2 ^ 32 →
        predict g m n k computeUnits level =
          rule g.toInt m.toInt n.toInt k.toInt computeUnits.toInt) ∧
      ∀ (problem : Problem) (level : Level),
        factors problem level = if Splits problem level then [1, 2, 4, 8] else [1] :=
  ⟨fun _ _ _ _ _ _ slow few => predict_eq_rule slow few, factors_eq_of_splits⟩

/-- A reduction that is rounded up to a power of two, and one that is an element short of four
times the longer side. -/
theorem advice_exact_longReduction :
    Level.full ≠ .quick ∧ (3 : Int64).toInt < 2 ^ 32 ∧
      predict 1 64 64 9223372036854775807 3 .full = .likely ∧
      predict 1 64 1024 4095 33 .full = .possible := by
  refine ⟨by decide, by decide, ?_, ?_⟩
  · rw [advice_exact.1 1 64 64 9223372036854775807 3 .full (by decide) (by decide)]
    decide +kernel
  · rw [advice_exact.1 1 64 1024 4095 33 .full (by decide) (by decide)]
    decide +kernel

end KernelTuning.SplitK
