import KernelTuning.Config.Text
import KernelTuning.Proofs.Checked
import Mathlib.Data.List.TakeDrop

/-!
# Reading written configurations

Writing a configuration and reading the text again gives the configuration back
exactly if all its quantities are positive: a zero is written like any other number
but refused by the reader.  Flags are no quantities.
-/

namespace KernelTuning.Config

/-- The knobs that count something, in the order in which they are written. -/
def quantities : Config → List Nat
  | .matrix knobs =>
      [knobs.mPerBlock.toNat, knobs.nPerBlock.toNat, knobs.kPerBlock.toNat,
        knobs.mPerWave.toNat, knobs.nPerWave.toNat, knobs.kPack.toNat,
        knobs.splitK.toNat]
  | .scalar knobs =>
      [knobs.blockSize.toNat, knobs.mPerBlock.toNat, knobs.nPerBlock.toNat,
        knobs.kPerBlock.toNat, knobs.mPerThread.toNat, knobs.nPerThread.toNat]

/-- Every quantity is positive. -/
def Positive (config : Config) : Prop :=
  ∀ quantity, quantity ∈ config.quantities → 0 < quantity

instance (config : Config) : Decidable config.Positive :=
  List.decidableBAll _ _

theorem numbers_lt {config : Config} {number : Nat} (member : number ∈ config.numbers) :
    number < UInt32.size := by
  have flagSmall : ∀ flag : Bool, flagNumber flag < UInt32.size := by decide
  cases config with
  | matrix knobs =>
      simp only [numbers, List.mem_cons, List.not_mem_nil, or_false] at member
      rcases member with
        rfl | rfl | rfl | rfl | rfl | rfl | rfl | rfl | rfl
      all_goals first | exact UInt32.toNat_lt_size _ | exact flagSmall _
  | scalar knobs =>
      simp only [numbers, List.mem_cons, List.not_mem_nil, or_false] at member
      rcases member with rfl | rfl | rfl | rfl | rfl | rfl
      all_goals exact UInt32.toNat_lt_size _

/-! ## Fields -/

theorem isDigit_toDigits (value : Nat) :
    (Nat.toDigits 10 value).all Char.isDigit = true := by
  refine List.all_eq_true.mpr ?_
  intro char member
  exact Nat.isDigit_of_mem_toDigits (by decide) (by decide) member

theorem fieldValue?_toDigits {value : Nat} (small : value < UInt32.size) :
    fieldValue? (Nat.toDigits 10 value) = some value := by
  have nonempty : (Nat.toDigits 10 value).isEmpty = false :=
    List.isEmpty_eq_false_iff.mpr Nat.toDigits_ne_nil
  unfold fieldValue?
  simp [nonempty, isDigit_toDigits value, Nat.ofDigitChars_ten_toDigits, small]

private theorem fieldValues_toDigits
    (index : Nat) {values : List Nat}
    (small : ∀ value, value ∈ values → value < UInt32.size) :
    fieldValues index (values.map (Nat.toDigits 10)) = .ok values := by
  induction values generalizing index with
  | nil => rfl
  | cons value values induction =>
      have head := fieldValue?_toDigits (small value List.mem_cons_self)
      have tail := induction (index + 1) fun later member =>
        small later (List.mem_cons_of_mem _ member)
      simp only [List.map_cons, fieldValues, head, tail]
      rfl

theorem comma_not_mem_toDigits (value : Nat) : ',' ∉ Nat.toDigits 10 value := by
  intro member
  have digit := Nat.isDigit_of_mem_toDigits (by decide) (by decide) member
  exact absurd digit (by decide)

/-- No digit is a comma, so written fields are told apart again. -/
private theorem splitOn_fields {values : List Nat} (nonempty : values ≠ []) :
    ([','].intercalate (values.map (Nat.toDigits 10))).splitOn ',' =
      values.map (Nat.toDigits 10) := by
  refine List.splitOn_intercalate ',' ?_ (by simpa using nonempty)
  intro field member
  obtain ⟨value, _, rfl⟩ := List.mem_map.mp member
  exact comma_not_mem_toDigits value

/-! ## Knobs -/

theorem requirePositive_eq_ok_iff {values : List Nat} :
    requirePositive values = .ok () ↔ ∀ value, value ∈ values → 0 < value := by
  unfold requirePositive
  constructor
  · intro accepted
    split at accepted
    · cases accepted
    · rename_i absent
      intro value member
      have nonzero := List.findIdx?_eq_none_iff.mp absent value member
      exact Nat.pos_of_ne_zero (by simpa using nonzero)
  · intro positive
    have absent : values.findIdx? (· == 0) = none := by
      refine List.findIdx?_eq_none_iff.mpr ?_
      intro value member
      simpa using Nat.ne_of_gt (positive value member)
    rw [absent]

@[simp] theorem flagOf_flagNumber (index : Nat) (flag : Bool) :
    flagOf index (flagNumber flag) = .ok flag := by
  cases flag <;> rfl

theorem ofNumbers_numbers {config : Config} (positive : config.Positive) :
    ofNumbers config.numbers = .ok config := by
  have accepted := requirePositive_eq_ok_iff.mpr positive
  cases config with
  | matrix knobs =>
      simp only [quantities] at accepted
      simp only [numbers, ofNumbers, accepted, flagOf_flagNumber, UInt32.ofNat_toNat]
      rfl
  | scalar knobs =>
      simp only [quantities] at accepted
      simp only [numbers, ofNumbers, accepted, UInt32.ofNat_toNat]
      rfl

/-! ## Texts -/

theorem decodeChars_version (body : List Char) :
    decodeChars (version ++ ':' :: body) =
      fieldValues 0 (body.splitOn ',') >>= ofNumbers := by
  have start : (version ++ ':' :: body).span (· != ':') = (version, ':' :: body) := by
    rw [List.span_eq_takeWhile_dropWhile]
    rfl
  unfold decodeChars
  rw [start]
  rfl

theorem decode_encode {config : Config} (positive : config.Positive) :
    decode config.encode = .ok config := by
  have nonempty : config.numbers ≠ [] := by
    cases config <;> simp [numbers]
  have small : ∀ number, number ∈ config.numbers → number < UInt32.size :=
    fun _ member => numbers_lt member
  have values := fieldValues_toDigits 0 small
  unfold decode encode
  rw [String.toList_ofList, decodeChars_version, splitOn_fields nonempty, values]
  exact ofNumbers_numbers positive

end KernelTuning.Config
