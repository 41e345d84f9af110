import KernelTuning.Host.Interface
import KernelTuning.Proofs.AcceptedKnobs

/-!
# The limits of the structural checks

The structural checks multiply words before any of them has been bounded.  Local memory is
safe: its product sticks at the largest word, which no target has, so that the comparison is
the exact one.  The threads of all waves are not: their product is formed first and compared
afterwards, and a text with large tiles stops the checks there.  That is the only place where
a text can stop them.
-/

namespace KernelTuning

open Checked

/-! ## Products of words -/

namespace Word

private theorem saturatingProduct_le_iff {left right limit : Nat} (small : limit < max64) :
    saturatingProduct left right ≤ limit ↔ left * right ≤ limit := by
  unfold saturatingProduct
  omega

private theorem toNat_lt_max64 (word : UInt32) : word.toNat < max64 :=
  Nat.lt_trans word.toNat_lt_size (by decide)

theorem mod_eq_zero_iff {word divisor : UInt32} :
    word % divisor = 0 ↔ divisor.toNat ∣ word.toNat := by
  rw [Nat.dvd_iff_mod_eq_zero, ← UInt32.toNat_inj, UInt32.toNat_mod]
  rfl

end Word

theorem ScalarKnobs.threads_lt (knobs : ScalarKnobs) : knobs.threads < UInt64.size :=
  -- Both factors are half words.
  calc knobs.threads
      ≤ knobs.mPerBlock.toNat * knobs.nPerBlock.toNat :=
        Nat.mul_le_mul (Nat.div_le_self _ _) (Nat.div_le_self _ _)
    _ < UInt32.size * UInt32.size :=
        Nat.mul_lt_mul'' knobs.mPerBlock.toNat_lt_size knobs.nPerBlock.toNat_lt_size
    _ = UInt64.size := by decide

theorem ElementType.bytes_pos (type : ElementType) : 0 < type.bytes := by
  cases type <;> decide

namespace Config

variable {target : Target} {elementBytes : Nat} {config : Config}

/-! ## What the checks ask for -/

/-- The tile of one wave or one thread. -/
def innerTile : Config → Nat × Nat
  | .matrix knobs => (knobs.mPerWave.toNat, knobs.nPerWave.toNat)
  | .scalar knobs => (knobs.mPerThread.toNat, knobs.nPerThread.toNat)

/-- Inner tiles are not empty, and they cut the block tile without a remainder. -/
def Tiled (config : Config) : Prop :=
  (0 < config.innerTile.1 ∧ 0 < config.innerTile.2) ∧
    config.innerTile.1 ∣ config.mPerBlock.toNat ∧ config.innerTile.2 ∣ config.nPerBlock.toNat

/-- The threads of a workgroup.  A wave has as many as the target's waves are wide. -/
def threadCount (target : Target) : Config → Nat
  | .matrix knobs =>
      knobs.mPerBlock.toNat / knobs.mPerWave.toNat
        * (knobs.nPerBlock.toNat / knobs.nPerWave.toNat) * target.waveSize.toNat
  | .scalar knobs =>
      knobs.mPerBlock.toNat / knobs.mPerThread.toNat
        * (knobs.nPerBlock.toNat / knobs.nPerThread.toNat)

/-- A scalar kernel names its threads itself. -/
def Covered : Config → Prop
  | .matrix _ => True
  | .scalar knobs =>
      knobs.mPerBlock.toNat / knobs.mPerThread.toNat
        * (knobs.nPerBlock.toNat / knobs.nPerThread.toNat) = knobs.blockSize.toNat

/-- The configuration can be launched on a target, in unbounded numbers. -/
structure Fits (target : Target) (elementBytes : Nat) (config : Config) : Prop where
  tiled : config.Tiled
  covered : config.Covered
  threads : 1 ≤ config.threadCount target ∧ config.threadCount target ≤ 256
  memory :
    (config.mPerBlock.toNat + config.nPerBlock.toNat) * config.kPerBlock.toNat
      * config.kPack.toNat * elementBytes ≤ target.ldsBytes.toNat

/-- The threads of all waves do not fit a word. -/
def Overflows (target : Target) (config : Config) : Prop :=
  config.Tiled ∧ UInt64.size ≤ config.threadCount target

/-! ## The thread count -/

theorem threadCount_matrix (knobs : MatrixKnobs) :
    (Config.matrix knobs).threadCount target = knobs.waves * target.waveSize.toNat :=
  rfl

theorem threadCount_scalar (knobs : ScalarKnobs) :
    (Config.scalar knobs).threadCount target = knobs.threads :=
  rfl

theorem covered_scalar_iff {knobs : ScalarKnobs} :
    (Config.scalar knobs).Covered ↔ knobs.threads = knobs.blockSize.toNat :=
  Iff.rfl

theorem tiled_matrix_iff {knobs : MatrixKnobs} :
    (Config.matrix knobs).Tiled ↔
      (knobs.mPerWave ≠ 0 ∧ knobs.nPerWave ≠ 0) ∧
        (knobs.mPerBlock % knobs.mPerWave = 0 ∧ knobs.nPerBlock % knobs.nPerWave = 0) := by
  rw [Word.mod_eq_zero_iff, Word.mod_eq_zero_iff, ← Word.toNat_pos_iff, ← Word.toNat_pos_iff]
  rfl

theorem tiled_scalar_iff {knobs : ScalarKnobs} :
    (Config.scalar knobs).Tiled ↔
      (knobs.mPerThread ≠ 0 ∧ knobs.nPerThread ≠ 0) ∧
        (knobs.mPerBlock % knobs.mPerThread = 0 ∧
          knobs.nPerBlock % knobs.nPerThread = 0) := by
  rw [Word.mod_eq_zero_iff, Word.mod_eq_zero_iff, ← Word.toNat_pos_iff, ← Word.toNat_pos_iff]
  rfl

theorem passes_threads_iff {threads : Nat} :
    Passes (config.threads target) threads ↔
      config.Tiled ∧ config.Covered ∧ config.threadCount target < UInt64.size ∧
        config.threadCount target = threads := by
  cases config with
  | matrix knobs =>
      rw [passes_threads_matrix_iff, tiled_matrix_iff, Word.product_eq_ok_iff]
      simp only [Covered, threadCount_matrix, true_and, and_assoc]
  | scalar knobs =>
      have small : knobs.threads < UInt64.size := knobs.threads_lt
      rw [passes_threads_scalar_iff, tiled_scalar_iff]
      simp only [covered_scalar_iff, threadCount_scalar, small, true_and, and_assoc]

theorem ends_threads_iff : Ends (config.threads target) ↔ ¬config.Overflows target := by
  cases config with
  | matrix knobs =>
      have product : (∃ threads,
          Word.product UInt64.size knobs.waves target.waveSize.toNat = .ok threads) ↔
            (Config.matrix knobs).threadCount target < UInt64.size := by
        simp only [Word.product_eq_ok_iff, exists_and_left, exists_eq', and_true]
        rfl
      rw [Overflows, tiled_matrix_iff, ← Nat.not_lt, ← product]
      unfold Config.threads
      simp only [ends_guard_iff, ends_lift_iff, not_or, not_and, not_not, ne_eq, and_imp]
  | scalar knobs =>
      have small : (Config.scalar knobs).threadCount target < UInt64.size := knobs.threads_lt
      constructor
      · rintro _ ⟨_, large⟩
        exact absurd small (Nat.not_lt.mpr large)
      · intro _
        unfold Config.threads
        exact .guard fun _ => .guard fun _ => .guard fun _ => ends_pure _

/-! ## Local memory -/

theorem ldsFootprint_le_iff {limit : Nat} (small : limit < Word.max64) :
    config.ldsFootprint elementBytes ≤ limit ↔
      (config.mPerBlock.toNat + config.nPerBlock.toNat) * config.kPerBlock.toNat
        * config.kPack.toNat * elementBytes ≤ limit := by
  unfold ldsFootprint kElements
  rw [Word.saturatingProduct_le_iff small, Nat.mul_assoc _ config.kPerBlock.toNat]
  unfold Word.saturatingProduct
  generalize (config.mPerBlock.toNat + config.nPerBlock.toNat)
    * (config.kPerBlock.toNat * config.kPack.toNat) = elements
  rcases Nat.le_total elements Word.max64 with fits | exceeds
  · rw [Nat.min_eq_left fits]
  · rw [Nat.min_eq_right exceeds]
    -- Both products are zero, or neither of them is within the limit.
    cases elementBytes with
    | zero => simp
    | succ bytes =>
        have stuck : Word.max64 ≤ Word.max64 * (bytes + 1) := Nat.le_mul_of_pos_right _ (by simp)
        have exact : elements ≤ elements * (bytes + 1) := Nat.le_mul_of_pos_right _ (by simp)
        omega

/-! ## All structural checks -/

theorem passes_checkStructure_iff_fits :
    Passes (config.checkStructure target elementBytes) () ↔
      config.Fits target elementBytes := by
  rw [passes_checkStructure_iff]
  simp only [passes_threads_iff, ldsFootprint_le_iff (Word.toNat_lt_max64 target.ldsBytes)]
  constructor
  · rintro ⟨threads, ⟨tiled, covered, _, rfl⟩, counted, memory⟩
    exact ⟨tiled, covered, counted, memory⟩
  · intro fits
    have few := fits.threads.2
    have small : config.threadCount target < UInt64.size := Nat.lt_of_le_of_lt few (by decide)
    exact ⟨_, ⟨fits.tiled, fits.covered, small, rfl⟩, fits.threads, fits.memory⟩

theorem ends_checkStructure_iff :
    Ends (config.checkStructure target elementBytes) ↔ ¬config.Overflows target := by
  unfold checkStructure
  rw [ends_bind_iff, ends_threads_iff, and_iff_left_iff_imp]
  intro _ threads _
  exact .guard fun _ => ends_lastGuard _ _

theorem block_pos_of_threadCount_pos (threads : 0 < config.threadCount target) :
    0 < config.mPerBlock.toNat ∧ 0 < config.nPerBlock.toNat := by
  cases config with
  | matrix knobs => exact MatrixKnobs.block_pos (Nat.pos_of_mul_pos_right threads)
  | scalar knobs => exact ScalarKnobs.block_pos threads

theorem Fits.kElements_lt (fits : config.Fits target elementBytes) (bytes : 0 < elementBytes) :
    config.kElements < UInt32.size := by
  have block := (block_pos_of_threadCount_pos fits.threads.1).1
  have tiles : 0 < config.mPerBlock.toNat + config.nPerBlock.toNat := by omega
  calc config.kElements
      ≤ (config.mPerBlock.toNat + config.nPerBlock.toNat) * config.kElements * elementBytes :=
        Nat.le_trans (Nat.le_mul_of_pos_left _ tiles) (Nat.le_mul_of_pos_right _ bytes)
    _ ≤ target.ldsBytes.toNat := by
        rw [kElements, ← Nat.mul_assoc]
        exact fits.memory
    _ < UInt32.size := target.ldsBytes.toNat_lt_size

end Config

namespace Problem

variable {problem : Problem} {config : Config} {text : String}

/-! ## Where the checks of a problem stop -/

/-- The checks of a configuration get as far as the thread count, which does not fit. -/
def Overflows (problem : Problem) (config : Config) : Prop :=
  problem.validate = .ok () ∧ config.isMatrix = problem.usesMatrix ∧
    config.Overflows problem.target

/-- The text is a configuration whose checks stop at the thread count. -/
def OverflowsOn (problem : Problem) (text : String) : Prop :=
  ∃ config, Config.decode text = .ok config ∧ problem.Overflows config

private theorem ends_validateMatrix {knobs : MatrixKnobs}
    (small : (Config.matrix knobs).kElements < UInt32.size) :
    Ends (problem.validateMatrix knobs) := by
  unfold validateMatrix
  split
  · exact ends_throw _
  · rename_i instruction _
    refine (ends_lift (instruction.isFed_eq_ok small)).bind ?_
    intro fed _
    by_cases isFed : fed = true
    · by_cases splits : 1 < knobs.splitK
      · by_cases atomic : problem.target.supportsAtomicAdd problem.outType = true
        · simpa [isFed, splits, atomic] using ends_lastGuard _ _
        · simp [isFed, splits, atomic]
      · simp [isFed, splits]
    · simp [isFed]

theorem ends_validateConfig_iff :
    Ends (problem.validateConfig config) ↔ ¬problem.Overflows config := by
  unfold validateConfig Overflows
  cases problem.validate with
  | error fault => simp
  | ok accepted =>
      simp only [ends_guard_iff, ends_bind_iff, ends_adapt_iff, passes_adapt,
        Config.ends_checkStructure_iff, ne_eq, not_not, true_and, not_and]
      apply imp_congr_right
      intro _
      rw [and_iff_left_iff_imp]
      intro _ _ passes
      -- The product that the instruction is compared with is bounded by local memory.
      have fits := Config.passes_checkStructure_iff_fits.mp passes
      cases config with
      | matrix knobs => exact ends_validateMatrix (fits.kElements_lt problem.aType.bytes_pos)
      | scalar knobs => exact ends_pure _

theorem ends_apply_iff : Ends (problem.apply config) ↔ ¬problem.Overflows config := by
  unfold apply
  rw [ends_bind_iff, ends_validateConfig_iff, and_iff_left_iff_imp]
  intro _ _ _
  exact ends_pure _

theorem ends_applyText_iff : Ends (problem.applyText text) ↔ ¬problem.OverflowsOn text := by
  unfold applyText OverflowsOn
  cases Config.decode text with
  | error error => simp
  | ok config => simp [ends_adapt_iff, ends_apply_iff]

end Problem

namespace Host

theorem exists_settle_iff {ε : Type} {problem : Problem} {attempt : ExceptT ε Checked Problem} :
    (∃ answer, settle problem attempt = .ok answer) ↔ Ends attempt := by
  unfold settle Ends
  constructor
  · rintro ⟨answer, settled⟩
    obtain ⟨result, attemptRun, _⟩ := bind_eq_ok_iff.mp settled
    exact ⟨result, attemptRun⟩
  · rintro ⟨result, attemptRun⟩
    rw [attemptRun]
    cases result with
    | error error => exact ⟨_, rfl⟩
    | ok configured => exact ⟨_, rfl⟩

end Host

namespace Config

/-- The structural checks decide exactly, in unbounded numbers, whether a configuration can be
launched, and come to an end unless the threads of all waves together exceed a word.  A text
stops the checks of a problem only if it is such a configuration. -/
theorem checkStructure_exact (target : Target) (elementBytes : Nat) (config : Config)
    (problem : Problem) (text : String) :
    (Passes (config.checkStructure target elementBytes) () ↔ config.Fits target elementBytes) ∧
      (Ends (config.checkStructure target elementBytes) ↔ ¬config.Overflows target) ∧
      (Ends (problem.applyText text) ↔ ¬problem.OverflowsOn text) ∧
      ((∃ answer, Host.setFromText problem text = .ok answer) ↔ ¬problem.OverflowsOn text) := by
  refine ⟨passes_checkStructure_iff_fits, ends_checkStructure_iff, Problem.ends_applyText_iff, ?_⟩
  exact Host.exists_settle_iff.trans Problem.ends_applyText_iff

/-- Block tiles as large as a word and wave tiles of one element stop the checks, also when
they come out of a text. -/
theorem checkStructure_overflow :
    ((Config.matrix ⟨4294967295, 4294967295, 1, 1, 1, 1, 1, false, false⟩).checkStructure
        Space.smallProduct.target 4).run = .error .multiplication ∧
      Host.setFromText Space.smallProduct "v2:4294967295,4294967295,1,1,1,1,1,0,0" =
        .error .multiplication := by
  decide

end Config

end KernelTuning
