import KernelTuning.Decimal.Reading
import KernelTuning.Decimal.Shortest
import Mathlib.Algebra.Group.Nat.Defs
import Mathlib.Data.Nat.Log

/-!
# Nearest numbers

Rounding depends on the value of a quotient and not on its terms, and leaves a value alone
that has a code.  Therefore the decimal chosen for a number determines the number, also
where none of its shorter decimals does and every digit is kept.  A decimal with few digits
and few places is read as the number nearest to it, because only its last step rounds.
-/

namespace KernelTuning

namespace Binary64

theorem blockSize_eq : blockSize = 2 ^ 52 := by
  decide

/-- The place of the unit behind the binary point.  The number is kept folded, because its
powers are far too large to be computed. -/
@[irreducible] def unitPlaces : Nat := 1074

theorem unitPlaces_eq : unitPlaces = 1074 := by
  rw [unitPlaces]

/-- The units in one. -/
def unitsOfOne : Nat := 2 ^ unitPlaces

/-- What is missing from the units in one to a power of ten. -/
def fivesOfUnit : Nat := 5 ^ unitPlaces

theorem shiftLeft_eq_mul_unitsOfOne (value : Nat) : value <<< 1074 = value * unitsOfOne := by
  rw [← unitPlaces_eq, Nat.shiftLeft_eq, unitsOfOne]

private theorem unitsOfOne_mul_fivesOfUnit : unitsOfOne * fivesOfUnit = 10 ^ unitPlaces := by
  rw [unitsOfOne, fivesOfUnit, ← Nat.mul_pow]

theorem unitsOfOne_pos : 0 < unitsOfOne :=
  Nat.two_pow_pos unitPlaces

theorem fivesOfUnit_pos : 0 < fivesOfUnit :=
  Nat.pow_pos (by decide)

/-! ## Sign and magnitude -/

private theorem toNat_bits_lt (x : Binary64) : x.bits.toNat < 2 * codeCount :=
  x.bits.toNat_lt

/-- A number is its sign and its magnitude. -/
theorem ofCode_code (x : Binary64) : ofCode x.negative x.code = x := by
  have bound := x.toNat_bits_lt
  have parts : x.code % codeCount + (if x.negative then codeCount else 0) = x.bits.toNat := by
    unfold negative code
    simp only [Nat.mod_mod, decide_eq_true_eq]
    split
    · rename_i large
      rw [Nat.mod_eq_sub_mod large, Nat.mod_eq_of_lt (by omega)]
      omega
    · rename_i small
      rw [Nat.mod_eq_of_lt (by omega), Nat.add_zero]
  have bits : UInt64.ofNat (x.code % codeCount + if x.negative then codeCount else 0) = x.bits := by
    rw [parts, UInt64.ofNat_toNat]
  exact congrArg Binary64.mk bits

theorem code_ofCode {code : Nat} (negative : Bool) (small : code < codeCount) :
    (ofCode negative code).code = code := by
  have size : codeCount + codeCount = 2 ^ 64 := by
    decide
  have fits : code + (if negative then codeCount else 0) < 2 ^ 64 := by
    split <;> omega
  unfold ofCode Binary64.code
  rw [Nat.mod_eq_of_lt small]
  change (UInt64.ofNat _).toNat % codeCount = code
  rw [UInt64.toNat_ofNat_of_lt' fits]
  split
  · rw [Nat.add_mod_right, Nat.mod_eq_of_lt small]
  · rw [Nat.add_zero, Nat.mod_eq_of_lt small]

/-! ## Rounding a quotient -/

private theorem roundHalfEven_mul {factor : Nat} (positive : 0 < factor)
    (numerator denominator : Nat) :
    roundHalfEven (numerator * factor) (denominator * factor) =
      roundHalfEven numerator denominator := by
  have below : ∀ remainder, 2 * (remainder * factor) < denominator * factor ↔
      2 * remainder < denominator := by
    intro remainder
    rw [← Nat.mul_assoc, Nat.mul_lt_mul_right positive]
  have above : ∀ remainder, denominator * factor < 2 * (remainder * factor) ↔
      denominator < 2 * remainder := by
    intro remainder
    rw [← Nat.mul_assoc, Nat.mul_lt_mul_right positive]
  unfold roundHalfEven
  simp only [Nat.mul_div_mul_right _ _ positive, Nat.mul_mod_mul_right, below, above]

theorem roundHalfEven_of_dvd {denominator : Nat} (positive : 0 < denominator) (quotient : Nat) :
    roundHalfEven (quotient * denominator) denominator = quotient := by
  unfold roundHalfEven
  simp [Nat.mul_div_cancel _ positive, positive]

/-- The nearest code depends on the value of the quotient alone. -/
theorem nearestCode_mul {factor : Nat} (positive : 0 < factor) (numerator denominator : Nat) :
    nearestCode (numerator * factor) (denominator * factor) =
      nearestCode numerator denominator := by
  have shifted : ∀ value places, (value * factor) <<< places = value <<< places * factor := by
    intro value places
    rw [Nat.shiftLeft_eq, Nat.shiftLeft_eq, Nat.mul_right_comm]
  unfold nearestCode
  simp only [shifted, Nat.mul_div_mul_right _ _ positive, roundHalfEven_mul positive]

/-- A value that is a whole number of grown units needs no rounding. -/
private theorem nearestCode_of_significand {significand shift : Nat}
    (top : (significand * 2 ^ shift).log2 - 52 = shift) :
    nearestCode (significand * 2 ^ shift) unitsOfOne =
      min infinityCode (shift * blockSize + significand) := by
  have grown : significand * 2 ^ shift * unitsOfOne =
      significand * (unitsOfOne * 2 ^ shift) := by
    rw [Nat.mul_assoc, Nat.mul_comm (2 ^ shift)]
  have positive : 0 < unitsOfOne * 2 ^ shift :=
    Nat.mul_pos unitsOfOne_pos (Nat.two_pow_pos shift)
  unfold nearestCode
  simp only [shiftLeft_eq_mul_unitsOfOne, Nat.mul_div_cancel _ unitsOfOne_pos, top]
  rw [Nat.shiftLeft_eq, grown, roundHalfEven_of_dvd positive]

private theorem log2_eq_of_bounds {value places : Nat} (lower : 2 ^ places ≤ value)
    (upper : value < 2 ^ (places + 1)) : value.log2 = places := by
  rw [Nat.log2_eq_log_two]
  exact Nat.log_eq_of_pow_le_of_lt_pow lower upper

/-- Beyond the first block, a code is a significand with its leading bit and a shift. -/
theorem units_block (shift : Nat) {rest : Nat} (small : rest < blockSize) :
    units ((shift + 1) * blockSize + rest) = (blockSize + rest) * 2 ^ shift := by
  have block : 0 < blockSize := by decide
  have beyond : ¬(shift + 1) * blockSize + rest < blockSize := by
    rw [Nat.add_mul]
    omega
  have quotient : ((shift + 1) * blockSize + rest) / blockSize = shift + 1 := by
    rw [Nat.mul_comm, Nat.mul_add_div block, Nat.div_eq_of_lt small, Nat.add_zero]
  have remainder : ((shift + 1) * blockSize + rest) % blockSize = rest := by
    rw [Nat.mul_comm, Nat.mul_add_mod, Nat.mod_eq_of_lt small]
  rw [units, if_neg beyond, quotient, remainder, Nat.add_sub_cancel, Nat.shiftLeft_eq]

/-- Every finite code is the nearest one to its own value. -/
theorem nearestCode_units {code : Nat} (finite : code < infinityCode) :
    nearestCode (units code) unitsOfOne = code := by
  have block : 0 < blockSize := by decide
  by_cases small : code < blockSize
  · have value : units code = code * 2 ^ 0 := by
      rw [units, if_pos small, Nat.pow_zero, Nat.mul_one]
    have low : code.log2 - 52 = 0 := by
      rw [blockSize_eq] at small
      have bound : code.log2 ≤ 52 := by
        by_contra above
        have large := Nat.log2_self_le (n := code) (by rintro rfl; simp at above)
        have grows : 2 ^ 52 ≤ 2 ^ code.log2 := Nat.pow_le_pow_right (by decide) (by omega)
        omega
      omega
    rw [value, nearestCode_of_significand (by simpa using low), Nat.zero_mul, Nat.zero_add]
    exact Nat.min_eq_right (Nat.le_of_lt finite)
  · obtain ⟨shift, rest, restSmall, rfl⟩ : ∃ shift rest, rest < blockSize ∧
        code = (shift + 1) * blockSize + rest := by
      refine ⟨code / blockSize - 1, code % blockSize, Nat.mod_lt _ block, ?_⟩
      have positive : 1 ≤ code / blockSize := Nat.div_pos (Nat.not_lt.mp small) block
      rw [Nat.sub_add_cancel positive, Nat.div_add_mod']
    have top : ((blockSize + rest) * 2 ^ shift).log2 - 52 = shift := by
      rw [@log2_eq_of_bounds _ (52 + shift)]
      · exact Nat.add_sub_cancel_left ..
      · rw [Nat.pow_add, ← blockSize_eq]
        exact Nat.mul_le_mul_right _ (Nat.le_add_right _ _)
      · rw [show 52 + shift + 1 = 53 + shift by omega, Nat.pow_add]
        apply Nat.mul_lt_mul_of_pos_right _ (Nat.two_pow_pos shift)
        have double : 2 ^ 53 = blockSize + blockSize := by decide
        omega
    rw [units_block shift restSmall, nearestCode_of_significand top]
    have joined : shift * blockSize + (blockSize + rest) = (shift + 1) * blockSize + rest := by
      rw [Nat.add_mul, Nat.one_mul, Nat.add_assoc]
    rw [joined]
    exact Nat.min_eq_right (Nat.le_of_lt finite)

/-- A quotient that has a code needs no rounding. -/
private theorem nearestCode_of_units {code numerator denominator : Nat}
    (finite : code < infinityCode)
    (positive : 0 < denominator) (exact : units code * denominator = numerator * unitsOfOne) :
    nearestCode numerator denominator = code := by
  rw [← nearestCode_mul unitsOfOne_pos, ← exact, Nat.mul_comm denominator,
    nearestCode_mul positive, nearestCode_units finite]

theorem nearestCode_lt (numerator denominator : Nat) :
    nearestCode numerator denominator < codeCount :=
  (Nat.min_le_left _ _).trans_lt (by decide)

/-- Every integer of at most 53 bits is a number, and so is the next one. -/
private theorem exists_units_eq {value : Nat} (small : value ≤ 2 ^ 53) :
    ∃ code, code < infinityCode ∧ units code = value * unitsOfOne := by
  have places := unitPlaces_eq
  have largest : infinityCode = 2047 * blockSize := rfl
  rcases Nat.eq_zero_or_pos value with rfl | positive
  · exact ⟨0, by decide, by rw [Nat.zero_mul]; rfl⟩
  · rcases Nat.lt_or_eq_of_le small with less | rfl
    · have lower := Nat.log2_self_le (Nat.ne_of_gt positive)
      have upper := Nat.lt_log2_self (n := value)
      have bound : value.log2 < 53 := (Nat.log2_lt (Nat.ne_of_gt positive)).mpr less
      obtain ⟨missing, gap⟩ : ∃ missing, missing + value.log2 = 52 := ⟨52 - value.log2, by omega⟩
      obtain ⟨shift, moved⟩ : ∃ shift, missing + shift = unitPlaces :=
        ⟨unitPlaces - missing, by omega⟩
      have leading : blockSize ≤ value * 2 ^ missing := by
        rw [blockSize_eq, ← gap, Nat.pow_add, Nat.mul_comm]
        exact Nat.mul_le_mul_right _ lower
      have bits : value * 2 ^ missing < blockSize + blockSize := by
        have double : blockSize + blockSize = 2 ^ (value.log2 + 1) * 2 ^ missing := by
          rw [← Nat.pow_add, show value.log2 + 1 + missing = 53 by omega]
          decide
        rw [double]
        exact Nat.mul_lt_mul_of_pos_right upper (Nat.two_pow_pos _)
      obtain ⟨rest, significand⟩ := Nat.exists_eq_add_of_le leading
      have restSmall : rest < blockSize := by omega
      refine ⟨(shift + 1) * blockSize + rest, ?_, ?_⟩
      · have blocks : (shift + 1) * blockSize ≤ 1075 * blockSize :=
          Nat.mul_le_mul_right _ (by omega)
        omega
      · rw [units_block shift restSmall, ← significand, Nat.mul_assoc, ← Nat.pow_add, moved,
          unitsOfOne]
    · refine ⟨(unitPlaces + 1 + 1) * blockSize + 0, ?_, ?_⟩
      · rw [places]
        decide
      · rw [units_block _ (by decide), Nat.add_zero, blockSize_eq, unitsOfOne, ← Nat.pow_add,
          ← Nat.pow_add, show 52 + (unitPlaces + 1) = 53 + unitPlaces by omega]

theorem code_ofRatio (negative : Bool) (numerator denominator : Nat) :
    (ofRatio negative numerator denominator).code = nearestCode numerator denominator :=
  code_ofCode negative (nearestCode_lt numerator denominator)

/-- Integers of at most 53 bits are kept exactly. -/
theorem units_nearestCode {value : Nat} (small : value ≤ 2 ^ 53) :
    units (nearestCode value 1) = value * unitsOfOne := by
  obtain ⟨code, finite, exact⟩ := exists_units_eq small
  rw [nearestCode_of_units finite Nat.one_pos (by rw [Nat.mul_one, exact]), exact]

/-! ## Sizes -/

theorem units_pos {code : Nat} (positive : 0 < code) : 0 < units code := by
  unfold units
  split
  · exact positive
  · rw [Nat.shiftLeft_eq]
    exact Nat.mul_pos (Nat.add_pos_left (by decide) _) (Nat.two_pow_pos _)

private theorem units_lt_two_pow {code places : Nat} (finite : code < infinityCode)
    (room : 2098 ≤ places) : units code < 2 ^ places := by
  have largest : infinityCode = 2047 * blockSize := rfl
  unfold units
  split
  · rename_i small
    rw [blockSize_eq] at small
    exact small.trans_le (Nat.pow_le_pow_right (by decide) (by omega))
  · have blocks : code / blockSize < 2047 :=
      Nat.div_lt_of_lt_mul (by rwa [Nat.mul_comm, ← largest])
    have rest : code % blockSize < blockSize := Nat.mod_lt _ (by decide)
    have double : blockSize + blockSize = 2 ^ 53 := by decide
    rw [Nat.shiftLeft_eq]
    calc (blockSize + code % blockSize) * 2 ^ (code / blockSize - 1)
        < 2 ^ 53 * 2 ^ (code / blockSize - 1) :=
          Nat.mul_lt_mul_of_pos_right (by omega) (Nat.two_pow_pos _)
      _ = 2 ^ (53 + (code / blockSize - 1)) := (Nat.pow_add ..).symm
      _ ≤ 2 ^ places := Nat.pow_le_pow_right (by decide) (by omega)

/-- Finite numbers have at most 309 digits in front of the point. -/
private theorem units_lt {code : Nat} (finite : code < infinityCode) :
    units code < Decimal.tenPower 309 * unitsOfOne :=
  (units_lt_two_pow finite le_rfl).trans_le (by decide +kernel)

end Binary64

namespace Decimal

open Binary64

theorem significand_exact (code : Nat) :
    (exact code).significand = units code * fivesOfUnit := by
  change units code * Nat.pow 5 1074 = _
  rw [← unitPlaces_eq, fivesOfUnit, Nat.pow_eq]

/-- The digits of an exact expansion are few enough for its leading exponent to be one that
a finite number can have. -/
private theorem length_digits_exact {code : Nat} (positive : 0 < code)
    (finite : code < infinityCode) :
    744 < (exact code).digits.length ∧ (exact code).digits.length ≤ 1383 := by
  unfold digits
  rw [← Nat.not_le, Nat.length_toDigits_le_iff (by decide) (by decide),
    Nat.length_toDigits_le_iff (by decide) (by decide), Nat.not_lt, significand_exact]
  constructor
  · calc 10 ^ 744 ≤ fivesOfUnit := by decide +kernel
      _ ≤ units code * fivesOfUnit := Nat.le_mul_of_pos_left _ (units_pos positive)
  · calc units code * fivesOfUnit
        < tenPower 309 * unitsOfOne * fivesOfUnit :=
          Nat.mul_lt_mul_of_pos_right (units_lt finite) fivesOfUnit_pos
      _ ≤ 10 ^ 1383 := by decide +kernel

/-- In the range of the finite numbers the nearest code is that of the exact quotient. -/
theorem nearestCode_of_negSucc {decimal : Decimal} {places : Nat}
    (nonzero : decimal.significand ≠ 0) (upper : decimal.leadingExponent < 310)
    (lower : -330 ≤ decimal.leadingExponent) (exponent : decimal.exponent = .negSucc places) :
    decimal.nearestCode = Binary64.nearestCode decimal.significand (10 ^ (places + 1)) := by
  unfold nearestCode
  rw [if_neg nonzero, if_neg (Int.not_le.mpr upper), if_neg (Int.not_lt.mpr lower), exponent]
  rfl

theorem nearestCode_exact {code : Nat} (positive : 0 < code) (finite : code < infinityCode) :
    (exact code).nearestCode = code := by
  obtain ⟨lower, upper⟩ := length_digits_exact positive finite
  have exponent : (exact code).exponent = .negSucc (unitPlaces - 1) := by
    rw [unitPlaces_eq]
    rfl
  have nonzero : (exact code).significand ≠ 0 := by
    rw [significand_exact]
    exact Nat.ne_of_gt (Nat.mul_pos (units_pos positive) fivesOfUnit_pos)
  have leading : (exact code).leadingExponent = (exact code).digits.length - 1075 := by
    unfold leadingExponent
    rw [exponent, unitPlaces_eq]
    omega
  have places : unitPlaces - 1 + 1 = unitPlaces := by
    rw [unitPlaces_eq]
  rw [nearestCode_of_negSucc nonzero (by omega) (by omega) exponent, significand_exact, places,
    ← unitsOfOne_mul_fivesOfUnit, Binary64.nearestCode_mul fivesOfUnit_pos,
    nearestCode_units finite]

/-! ## Trailing zeros -/

/-- A number with a zero more at the end is ten times as large. -/
theorem toDigits_mul_tenPower {number : Nat} (positive : 0 < number) (count : Nat) :
    Nat.toDigits 10 (number * 10 ^ count) =
      Nat.toDigits 10 number ++ List.replicate count '0' := by
  induction count with
  | zero => simp
  | succ count induction =>
      have shorter : 0 < number * 10 ^ count := Nat.mul_pos positive (Nat.pow_pos (by decide))
      have longer := Nat.toDigits_append_toDigits (b := 10) (d := 0) (by decide) shorter (by decide)
      rw [Nat.add_zero, Nat.toDigits_zero, induction, List.append_assoc] at longer
      rw [Nat.pow_succ, ← Nat.mul_assoc, Nat.mul_comm _ 10, ← longer, List.replicate_succ']

private theorem leadingExponent_pad {significand : Nat} (positive : 0 < significand)
    (exponent : Int)
    (count : Nat) :
    leadingExponent ⟨significand * 10 ^ count, exponent - count⟩ =
      leadingExponent ⟨significand, exponent⟩ := by
  simp only [leadingExponent, digits, toDigits_mul_tenPower positive, List.length_append,
    List.length_replicate]
  omega

/-- Trailing zeros that the exponent makes up for do not matter. -/
theorem nearestCode_pad (significand : Nat) (exponent : Int) (count : Nat) :
    nearestCode ⟨significand * 10 ^ count, exponent - count⟩ =
      nearestCode ⟨significand, exponent⟩ := by
  rcases Nat.eq_zero_or_pos significand with rfl | positive
  · simp [nearestCode]
  · have nonzero : significand * 10 ^ count ≠ 0 :=
      Nat.ne_of_gt (Nat.mul_pos positive (Nat.pow_pos (by decide)))
    have tens : ∀ places, 0 < 10 ^ places := fun _ => Nat.pow_pos (by decide)
    unfold nearestCode
    rw [leadingExponent_pad positive]
    simp only [if_neg nonzero, if_neg (Nat.ne_of_gt positive), tenPower, Nat.pow_eq]
    split
    · rfl
    · split
      · rfl
      · cases exponent with
        | ofNat power =>
            rcases Nat.le_total count power with few | many
            · obtain ⟨rest, rfl⟩ := Nat.exists_eq_add_of_le few
              have moved : Int.ofNat (count + rest) - count = .ofNat rest := by
                simp only [Int.ofNat_eq_natCast]
                omega
              rw [moved]
              simp only [Nat.pow_add, Nat.mul_assoc]
            · obtain ⟨rest, rfl⟩ := Nat.exists_eq_add_of_le many
              cases rest with
              | zero =>
                  have moved : Int.ofNat power - ((power + 0 : Nat) : Int) = .ofNat 0 := by
                    simp
                  rw [moved]
                  simp
              | succ rest =>
                  have moved : Int.ofNat power - ((power + (rest + 1) : Nat) : Int) =
                      .negSucc rest := by
                    simp only [Int.ofNat_eq_natCast]
                    omega
                  rw [moved]
                  have grown := Binary64.nearestCode_mul (tens (rest + 1))
                    (significand * 10 ^ power) 1
                  rw [Nat.one_mul, Nat.mul_assoc, ← Nat.pow_add] at grown
                  exact grown
        | negSucc power =>
            have moved : Int.negSucc power - count = .negSucc (power + count) := by
              omega
            rw [moved]
            have grown := Binary64.nearestCode_mul (tens count) significand (10 ^ (power + 1))
            rw [← Nat.pow_add, Nat.add_right_comm] at grown
            exact grown

/-- The decimal written for a number determines the number. -/
theorem nearestCode_shortest {code : Nat} (finite : code < infinityCode) :
    (shortest code).nearestCode = code := by
  unfold shortest
  split
  · rename_i zero
    rw [zero]
    rfl
  · rename_i nonzero
    have positive := Nat.pos_of_ne_zero nonzero
    cases found : (List.range' 1 17).findSome? (determining? code) with
    | none => exact nearestCode_exact positive finite
    | some decimal =>
        obtain ⟨count, _, determines⟩ := List.exists_of_findSome?_eq_some found
        have determined := List.find?_some determines
        exact beq_iff_eq.mp determined

/-! ## Short decimals -/

/-- The powers of ten that are numbers. -/
private theorem units_roundedTenPower {places : Nat} (few : places ≤ 22) :
    units (roundedTenPower places).code = 10 ^ places * unitsOfOne := by
  have exact : ∀ places : Fin 23,
      units (roundedTenPower places).code = 10 ^ places.val * 2 ^ 1074 := by
    decide +kernel
  rw [unitsOfOne, unitPlaces_eq]
  exact exact ⟨places, Nat.lt_succ_of_le few⟩

private theorem leadingExponent_of_short {decimal : Decimal} (word : decimal.significand ≤ 2 ^ 53)
    (lower : -22 ≤ decimal.exponent) (upper : decimal.exponent ≤ 22) :
    decimal.leadingExponent < 310 ∧ -330 ≤ decimal.leadingExponent := by
  have digits : decimal.digits.length ≤ 16 :=
    (Nat.length_toDigits_le_iff (by decide) (by decide)).mpr (Nat.lt_of_le_of_lt word (by decide))
  have some : 0 < decimal.digits.length := Nat.length_toDigits_pos
  unfold leadingExponent
  omega

/-- A decimal of at most 53 bits and 22 places is read as the nearest number: word and power
are exact, and one rounding remains. -/
theorem code_scaled_of_short {decimal : Decimal} (word : decimal.significand ≤ 2 ^ 53)
    (lower : -22 ≤ decimal.exponent) (upper : decimal.exponent ≤ 22) :
    decimal.scaled.code = decimal.nearestCode := by
  obtain ⟨bounded, above⟩ := leadingExponent_of_short word lower upper
  obtain ⟨significand, exponent⟩ := decimal
  have exactWord : units (ofInt (significand : Int)).code = significand * unitsOfOne := by
    rw [ofInt, code_ofRatio]
    exact units_nearestCode word
  cases exponent with
  | ofNat places =>
      have few : places ≤ 22 := Int.ofNat_le.mp upper
      have step : scaled ⟨significand, .ofNat places⟩ =
          (ofInt (significand : Int)).product (roundedTenPower places) :=
        if_pos (few.trans (by decide))
      have twice : 1 <<< 2148 = unitsOfOne * unitsOfOne := by
        rw [unitsOfOne, unitPlaces_eq]
        decide +kernel
      have read : (scaled ⟨significand, .ofNat places⟩).code =
          Binary64.nearestCode (significand * 10 ^ places) 1 := by
        calc (scaled ⟨significand, .ofNat places⟩).code
            = Binary64.nearestCode (significand * unitsOfOne * (10 ^ places * unitsOfOne))
                (1 <<< 2148) := by
              rw [step, product, code_ofRatio, exactWord, units_roundedTenPower few]
          _ = Binary64.nearestCode (significand * 10 ^ places * (unitsOfOne * unitsOfOne))
                (1 * (unitsOfOne * unitsOfOne)) := by
              rw [twice, Nat.one_mul, Nat.mul_mul_mul_comm]
          _ = Binary64.nearestCode (significand * 10 ^ places) 1 :=
              Binary64.nearestCode_mul (Nat.mul_pos unitsOfOne_pos unitsOfOne_pos) _ _
      rw [read, nearestCode, if_neg (Int.not_le.mpr bounded), if_neg (Int.not_lt.mpr above)]
      split
      · rename_i zero
        have zeroSignificand : significand = 0 := zero
        rw [zeroSignificand, Nat.zero_mul]
        decide +kernel
      · rfl
  | negSucc places =>
      have least : -22 ≤ Int.negSucc places := lower
      have few : places + 1 ≤ 22 := by omega
      have step : scaled ⟨significand, .negSucc places⟩ =
          (ofInt (significand : Int)).quotient (roundedTenPower (places + 1)) :=
        if_pos (few.trans (by decide))
      have read : (scaled ⟨significand, .negSucc places⟩).code =
          Binary64.nearestCode significand (10 ^ (places + 1)) := by
        rw [step, quotient, code_ofRatio, exactWord, units_roundedTenPower few,
          Binary64.nearestCode_mul unitsOfOne_pos]
      rw [read]
      by_cases zero : significand = 0
      · rw [zero, nearestCode, if_pos rfl]
        simp [Binary64.nearestCode, Binary64.roundHalfEven]
      · rw [nearestCode_of_negSucc zero bounded above rfl]

end Decimal

end KernelTuning
