import KernelTuning.Proofs.NearestNumbers
import Mathlib.Order.MinMax

/-!
# The order of rounded numbers

Rounding keeps the order of quotients, so a rounded quotient can be compared with a number
through exact bounds on both sides.  From above the bound is the number itself, from below
it is the next smaller number.  Quotients of integers with few bits stay away from that gap,
and for them the rounded comparison is the exact one.
-/

namespace KernelTuning.Binary64

/-! ## Rounding is monotone -/

private theorem div_le_roundHalfEven (numerator denominator : Nat) :
    numerator / denominator ≤ roundHalfEven numerator denominator := by
  unfold roundHalfEven
  simp only
  split
  · exact Nat.le_refl _
  · split <;> exact Nat.le_add_right _ _

private theorem roundHalfEven_le_succ (numerator denominator : Nat) :
    roundHalfEven numerator denominator ≤ numerator / denominator + 1 := by
  unfold roundHalfEven
  simp only
  split
  · exact Nat.le_succ _
  · split <;> omega

section Order

variable {numerator denominator other otherDenominator : Nat}

/-- Remainders of quotients with the same whole part are in the order of the quotients. -/
private theorem mod_mul_le_of_div_eq (order : numerator * otherDenominator ≤ other * denominator)
    (same : numerator / denominator = other / otherDenominator) :
    numerator % denominator * otherDenominator ≤ other % otherDenominator * denominator := by
  have exact := Nat.div_add_mod numerator denominator
  have otherExact := Nat.div_add_mod other otherDenominator
  rw [same] at exact
  generalize other / otherDenominator = quotient at *
  generalize numerator % denominator = remainder at *
  generalize other % otherDenominator = otherRemainder at *
  subst exact otherExact
  rw [Nat.add_mul, Nat.add_mul, Nat.mul_right_comm denominator,
    Nat.mul_right_comm otherDenominator, Nat.mul_comm denominator otherDenominator] at order
  exact Nat.le_of_add_le_add_left order

variable (positive : 0 < denominator) (otherPositive : 0 < otherDenominator)
  (order : numerator * otherDenominator ≤ other * denominator)

include positive otherPositive order

/-- A part that reaches one half or exceeds it still does so after it has grown. -/
private theorem half_of_mul_le :
    (denominator ≤ 2 * numerator → otherDenominator ≤ 2 * other) ∧
      (denominator < 2 * numerator → otherDenominator < 2 * other) := by
  have doubled : 2 * numerator * otherDenominator ≤ 2 * other * denominator := by
    rw [Nat.mul_assoc, Nat.mul_assoc]
    exact Nat.mul_le_mul_left 2 order
  constructor
  · intro reached
    apply Nat.le_of_mul_le_mul_right _ positive
    calc otherDenominator * denominator
        = denominator * otherDenominator := Nat.mul_comm ..
      _ ≤ 2 * numerator * otherDenominator := Nat.mul_le_mul_right _ reached
      _ ≤ 2 * other * denominator := doubled
  · intro exceeded
    apply Nat.lt_of_mul_lt_mul_right (a := denominator)
    calc otherDenominator * denominator
        = denominator * otherDenominator := Nat.mul_comm ..
      _ < 2 * numerator * otherDenominator := Nat.mul_lt_mul_of_pos_right exceeded otherPositive
      _ ≤ 2 * other * denominator := doubled

theorem div_le_div_of_mul_le : numerator / denominator ≤ other / otherDenominator := by
  apply (Nat.le_div_iff_mul_le otherPositive).mpr
  apply Nat.le_of_mul_le_mul_right _ positive
  calc numerator / denominator * otherDenominator * denominator
      = numerator / denominator * denominator * otherDenominator := Nat.mul_right_comm ..
    _ ≤ numerator * otherDenominator := Nat.mul_le_mul_right _ (Nat.div_mul_le_self _ _)
    _ ≤ other * denominator := order

theorem roundHalfEven_le :
    roundHalfEven numerator denominator ≤ roundHalfEven other otherDenominator := by
  rcases (div_le_div_of_mul_le positive otherPositive order).lt_or_eq with less | same
  · calc roundHalfEven numerator denominator
        ≤ numerator / denominator + 1 := roundHalfEven_le_succ _ _
      _ ≤ other / otherDenominator := less
      _ ≤ roundHalfEven other otherDenominator := div_le_roundHalfEven _ _
  · obtain ⟨reaches, exceeds⟩ :=
      half_of_mul_le positive otherPositive (mod_mul_le_of_div_eq order same)
    unfold roundHalfEven
    simp only [same]
    -- The whole parts agree, so only the side of the half matters.
    grind

end Order

/-- The places by which the unit has to grow for a quotient in units to fit 53 bits. -/
def grownPlaces (quotient : Nat) : Nat := quotient.log2 - 52

private theorem grownPlaces_le {quotient other : Nat} (order : quotient ≤ other) :
    grownPlaces quotient ≤ grownPlaces other := by
  unfold grownPlaces
  rw [Nat.log2_eq_log_two, Nat.log2_eq_log_two]
  exact Nat.sub_le_sub_right (Nat.log_mono_right order) 52

private theorem nearestCode_eq (numerator denominator : Nat) :
    nearestCode numerator denominator =
      min infinityCode
        (grownPlaces (numerator * unitsOfOne / denominator) * blockSize
          + roundHalfEven (numerator * unitsOfOne)
              (denominator * 2 ^ grownPlaces (numerator * unitsOfOne / denominator))) := by
  unfold nearestCode grownPlaces
  simp only [shiftLeft_eq_mul_unitsOfOne]
  simp only [Nat.shiftLeft_eq]

/-- In grown units a quotient rounds to at most 53 bits, and to one more at a carry. -/
private theorem roundHalfEven_grown_le {units denominator : Nat} (positive : 0 < denominator) :
    roundHalfEven units (denominator * 2 ^ grownPlaces (units / denominator)) ≤
      2 * blockSize := by
  have grown : 0 < denominator * 2 ^ grownPlaces (units / denominator) :=
    Nat.mul_pos positive (Nat.two_pow_pos _)
  have double : 2 ^ 53 = 2 * blockSize := by decide
  rw [← double, ← roundHalfEven_of_dvd grown (2 ^ 53)]
  apply roundHalfEven_le grown grown
  apply Nat.mul_le_mul_right
  have room : (units / denominator).log2 + 1 ≤ 53 + grownPlaces (units / denominator) := by
    unfold grownPlaces
    omega
  have bits : units / denominator < 2 ^ 53 * 2 ^ grownPlaces (units / denominator) := by
    rw [← Nat.pow_add]
    exact Nat.lt_log2_self.trans_le (Nat.pow_le_pow_right (by decide) room)
  calc units
      ≤ 2 ^ 53 * 2 ^ grownPlaces (units / denominator) * denominator :=
        ((Nat.div_lt_iff_lt_mul positive).mp bits).le
    _ = 2 ^ 53 * (denominator * 2 ^ grownPlaces (units / denominator)) := by
        rw [Nat.mul_assoc, Nat.mul_comm denominator]

/-- Where the unit has grown, a quotient has all 53 bits. -/
private theorem le_roundHalfEven_grown {units denominator : Nat} (positive : 0 < denominator)
    (grows : 0 < grownPlaces (units / denominator)) :
    blockSize ≤ roundHalfEven units (denominator * 2 ^ grownPlaces (units / denominator)) := by
  have grown : 0 < denominator * 2 ^ grownPlaces (units / denominator) :=
    Nat.mul_pos positive (Nat.two_pow_pos _)
  rw [blockSize_eq, ← roundHalfEven_of_dvd grown (2 ^ 52)]
  apply roundHalfEven_le grown grown
  apply Nat.mul_le_mul_right
  have room : 52 + grownPlaces (units / denominator) = (units / denominator).log2 := by
    unfold grownPlaces at grows ⊢
    omega
  have nonzero : units / denominator ≠ 0 := by
    intro zero
    rw [zero] at grows
    exact absurd grows (by decide)
  have bits : 2 ^ 52 * 2 ^ grownPlaces (units / denominator) ≤ units / denominator := by
    rw [← Nat.pow_add, room]
    exact Nat.log2_self_le nonzero
  calc 2 ^ 52 * (denominator * 2 ^ grownPlaces (units / denominator))
      = 2 ^ 52 * 2 ^ grownPlaces (units / denominator) * denominator := by
        rw [Nat.mul_assoc, Nat.mul_comm denominator]
    _ ≤ units := (Nat.le_div_iff_mul_le positive).mp bits

/-- A larger quotient is not rounded to a smaller number. -/
theorem nearestCode_le {numerator denominator other otherDenominator : Nat}
    (positive : 0 < denominator) (otherPositive : 0 < otherDenominator)
    (order : numerator * otherDenominator ≤ other * denominator) :
    nearestCode numerator denominator ≤ nearestCode other otherDenominator := by
  have inUnits : numerator * unitsOfOne * otherDenominator ≤ other * unitsOfOne * denominator := by
    rw [Nat.mul_right_comm, Nat.mul_right_comm other]
    exact Nat.mul_le_mul_right _ order
  have places := grownPlaces_le (div_le_div_of_mul_le positive otherPositive inUnits)
  rw [nearestCode_eq, nearestCode_eq]
  apply min_le_min_left
  generalize numerator * unitsOfOne = units at *
  generalize other * unitsOfOne = otherUnits at *
  rcases places.lt_or_eq with fewer | same
  · -- The smaller quotient ends in an earlier block of codes.
    have upper := @roundHalfEven_grown_le units _ positive
    have lower := @le_roundHalfEven_grown otherUnits _ otherPositive (by omega)
    have blocks : (grownPlaces (units / denominator) + 1) * blockSize ≤
        grownPlaces (otherUnits / otherDenominator) * blockSize := Nat.mul_le_mul_right _ fewer
    rw [Nat.add_mul] at blocks
    omega
  · rw [same]
    apply Nat.add_le_add_left
    generalize grownPlaces (otherUnits / otherDenominator) = shift
    apply roundHalfEven_le (Nat.mul_pos positive (Nat.two_pow_pos shift))
      (Nat.mul_pos otherPositive (Nat.two_pow_pos shift))
    rw [← Nat.mul_assoc, ← Nat.mul_assoc]
    exact Nat.mul_le_mul_right _ inUnits

theorem units_le_units {code other : Nat} (finite : other < infinityCode) (order : code ≤ other) :
    units code ≤ units other := by
  by_contra less
  have rounded := nearestCode_le unitsOfOne_pos unitsOfOne_pos
    (Nat.mul_le_mul_right unitsOfOne (Nat.le_of_not_le less))
  rw [nearestCode_units finite, nearestCode_units (order.trans_lt finite)] at rounded
  rw [Nat.le_antisymm order rounded] at less
  exact less (Nat.le_refl _)

/-! ## Comparing a rounded quotient with a number -/

section Compare

variable {code numerator denominator : Nat} (finite : code < infinityCode)
  (positive : 0 < denominator)

include finite positive

private theorem nearestCode_le_of_units
    (order : numerator * unitsOfOne ≤ units code * denominator) :
    nearestCode numerator denominator ≤ code := by
  calc nearestCode numerator denominator
      ≤ nearestCode (units code) unitsOfOne := nearestCode_le positive unitsOfOne_pos order
    _ = code := nearestCode_units finite

end Compare

/-- A quotient that is a number, the next smaller number being at most one part in `2 ^ 53`
away. -/
structure IsMark (top bottom : Nat) : Prop where
  positive : 0 < nearestCode top bottom
  finite : nearestCode top bottom < infinityCode
  whole : 0 < bottom
  exact : units (nearestCode top bottom) * bottom = top * unitsOfOne
  gap : (units (nearestCode top bottom) - units (nearestCode top bottom - 1)) * 2 ^ 53 ≤
    units (nearestCode top bottom)

namespace IsMark

variable {top bottom : Nat} (mark : IsMark top bottom)

include mark

theorem top_pos : 0 < top := by
  have product : 0 < top * unitsOfOne := by
    rw [← mark.exact]
    exact Nat.mul_pos (units_pos mark.positive) mark.whole
  exact Nat.pos_of_mul_pos_right product

section Quotient

variable {numerator denominator : Nat} (positive : 0 < denominator)

include positive

/-- A quotient of few bits below a mark is rounded below it. -/
theorem nearestCode_lt (few : top * denominator ≤ 2 ^ 53)
    (less : numerator * bottom < top * denominator) :
    nearestCode numerator denominator < nearestCode top bottom := by
  have before : nearestCode top bottom - 1 < infinityCode :=
    (Nat.sub_le _ _).trans_lt mark.finite
  have lower := units_le_units mark.finite (Nat.sub_le (nearestCode top bottom) 1)
  have gap := mark.gap
  have exact := mark.exact
  apply Nat.lt_of_le_pred mark.positive
  apply nearestCode_le_of_units before positive
  generalize units (nearestCode top bottom - 1) = unitsBefore at *
  generalize units (nearestCode top bottom) = unitsAt at *
  -- The gap, taken as often as the denominators ask for, is no more than one.
  have narrow : (unitsAt - unitsBefore) * (bottom * denominator) ≤ unitsOfOne := by
    apply Nat.le_of_mul_le_mul_right _ (Nat.two_pow_pos 53)
    calc (unitsAt - unitsBefore) * (bottom * denominator) * 2 ^ 53
        = (unitsAt - unitsBefore) * 2 ^ 53 * (bottom * denominator) := Nat.mul_right_comm ..
      _ ≤ unitsAt * (bottom * denominator) := Nat.mul_le_mul_right _ gap
      _ = top * denominator * unitsOfOne := by
          rw [← Nat.mul_assoc, exact, Nat.mul_right_comm]
      _ ≤ 2 ^ 53 * unitsOfOne := Nat.mul_le_mul_right _ few
      _ = unitsOfOne * 2 ^ 53 := Nat.mul_comm ..
  apply Nat.le_of_mul_le_mul_right _ mark.whole
  apply Nat.le_of_add_le_add_right (b := unitsOfOne)
  calc numerator * unitsOfOne * bottom + unitsOfOne
      = (numerator * bottom + 1) * unitsOfOne := by
        rw [Nat.mul_right_comm, Nat.add_mul, Nat.one_mul]
    _ ≤ top * denominator * unitsOfOne := Nat.mul_le_mul_right _ less
    _ = unitsAt * (bottom * denominator) := by
        rw [← Nat.mul_assoc, exact, Nat.mul_right_comm]
    _ = unitsBefore * (bottom * denominator)
          + (unitsAt - unitsBefore) * (bottom * denominator) := by
        rw [← Nat.add_mul, Nat.add_sub_cancel' lower]
    _ ≤ unitsBefore * (bottom * denominator) + unitsOfOne := Nat.add_le_add_left narrow _
    _ = unitsBefore * denominator * bottom + unitsOfOne := by
        rw [Nat.mul_comm bottom, Nat.mul_assoc]

/-- A quotient that reaches a mark is rounded to no less. -/
theorem le_nearestCode (reached : top * denominator ≤ numerator * bottom) :
    nearestCode top bottom ≤ nearestCode numerator denominator :=
  nearestCode_le mark.whole positive reached

theorem nearestCode_lt_iff (few : top * denominator ≤ 2 ^ 53) :
    nearestCode numerator denominator < nearestCode top bottom ↔
      numerator * bottom < top * denominator := by
  constructor
  · intro below
    by_contra reached
    exact Nat.not_lt.mpr (mark.le_nearestCode positive (Nat.le_of_not_lt reached)) below
  · exact mark.nearestCode_lt positive few

end Quotient

end IsMark

theorem isMark_half : IsMark 1 2 := by
  constructor <;> (try rw [unitsOfOne, unitPlaces_eq]) <;> decide +kernel

theorem isMark_one : IsMark 1 1 := by
  constructor <;> (try rw [unitsOfOne, unitPlaces_eq]) <;> decide +kernel

theorem isMark_four : IsMark 4 1 := by
  constructor <;> (try rw [unitsOfOne, unitPlaces_eq]) <;> decide +kernel

/-! ## Quotients of integers -/

private theorem negative_ofCode {code : Nat} (small : code < codeCount) :
    (ofCode false code).negative = false := by
  have fits : code < 2 ^ 64 := small.trans (by decide)
  unfold negative ofCode
  rw [if_neg Bool.false_ne_true, Nat.add_zero, Nat.mod_eq_of_lt small, decide_eq_false_iff_not,
    UInt64.toNat_ofNat_of_lt' fits]
  exact Nat.not_le.mpr small

theorem negative_ofRatio (numerator denominator : Nat) :
    (ofRatio false numerator denominator).negative = false :=
  negative_ofCode (nearestCode_lt numerator denominator)

private theorem isNaN_ofRatio (numerator denominator : Nat) :
    (ofRatio false numerator denominator).isNaN = false := by
  unfold isNaN
  rw [code_ofRatio, decide_eq_false_iff_not, Nat.not_lt]
  exact Nat.min_le_left _ _

/-- Rounded quotients are in the order of their codes. -/
theorem ofRatio_lt_iff {numerator denominator other otherDenominator : Nat} :
    ofRatio false numerator denominator < ofRatio false other otherDenominator ↔
      nearestCode numerator denominator < nearestCode other otherDenominator := by
  change lt _ _ = true ↔ _
  simp [lt, rank, isNaN_ofRatio, negative_ofRatio, code_ofRatio]

theorem ofInt_natCast (value : Nat) : ofInt (value : Int) = ofRatio false value 1 := by
  have nonnegative : decide ((value : Int) < 0) = false :=
    decide_eq_false (Int.not_lt.mpr (Int.natCast_nonneg value))
  rw [ofInt, nonnegative, Int.natAbs_natCast]

theorem quotient_natCast (dividend divisor : Nat) :
    (ofInt (dividend : Int)).quotient (ofInt (divisor : Int)) =
      ofRatio false (units (nearestCode dividend 1)) (units (nearestCode divisor 1)) := by
  rw [ofInt_natCast, ofInt_natCast, quotient]
  simp only [negative_ofRatio, code_ofRatio]
  rfl

private theorem nearestCode_lt_infinityCode {value : Nat} (word : value < 2 ^ 64) :
    nearestCode value 1 < infinityCode :=
  calc nearestCode value 1
      ≤ nearestCode (2 ^ 64) 1 := nearestCode_le Nat.one_pos Nat.one_pos (by omega)
    _ < infinityCode := by decide +kernel

namespace IsMark

variable {top bottom dividend divisor : Nat} (positive : 0 < divisor)
  (few : top * divisor ≤ 2 ^ 53)

include positive few

/-- Between integers of few bits the rounded comparison is the exact one. -/
theorem quotient_lt_iff (mark : IsMark top bottom) (exact : dividend ≤ 2 ^ 53) :
    (ofInt (dividend : Int)).quotient (ofInt (divisor : Int)) < ofRatio false top bottom ↔
      dividend * bottom < top * divisor := by
  have divisorFew : divisor ≤ 2 ^ 53 := (Nat.le_mul_of_pos_left _ mark.top_pos).trans few
  rw [quotient_natCast, ofRatio_lt_iff, units_nearestCode exact, units_nearestCode divisorFew,
    nearestCode_mul unitsOfOne_pos]
  exact mark.nearestCode_lt_iff positive few

/-- A dividend with more bits is rounded itself, but not below the mark. -/
theorem quotient_lt_ofInt_iff (mark : IsMark top 1) (word : dividend < 2 ^ 64) :
    (ofInt (dividend : Int)).quotient (ofInt (divisor : Int)) < ofInt (top : Int) ↔
      dividend < top * divisor := by
  rw [ofInt_natCast top]
  by_cases exact : dividend ≤ 2 ^ 53
  · have compared := mark.quotient_lt_iff positive few exact
    rwa [Nat.mul_one] at compared
  · have divisorFew : divisor ≤ 2 ^ 53 := (Nat.le_mul_of_pos_left _ mark.top_pos).trans few
    have large : 2 ^ 53 * unitsOfOne ≤ units (nearestCode dividend 1) := by
      rw [← units_nearestCode (Nat.le_refl _)]
      apply units_le_units (nearestCode_lt_infinityCode word)
      exact nearestCode_le Nat.one_pos Nat.one_pos (by omega)
    rw [quotient_natCast, ofRatio_lt_iff, units_nearestCode divisorFew]
    constructor
    · intro below
      refine absurd below (Nat.not_lt.mpr (mark.le_nearestCode ?_ ?_))
      · exact Nat.mul_pos positive unitsOfOne_pos
      · rw [← Nat.mul_assoc, Nat.mul_one]
        exact (Nat.mul_le_mul_right _ few).trans large
    · intro less
      exact absurd (less.le.trans few) exact

end IsMark

end KernelTuning.Binary64
