import KernelTuning.Config.Apply
import KernelTuning.Proofs.Checked
import KernelTuning.Proofs.ConfigText

/-!
# What the checks of a configuration ask for

The checks run one after the other and stop at the first that fails.  Here they are
read as conditions: which configurations pass, for which of them no arithmetic fault
can stop the checks, and what applying a configuration changes.
-/

namespace KernelTuning

open Checked

namespace Config

theorem isLaunchable_iff {target : Target} {elementBytes : Nat} {config : Config} :
    config.isLaunchable target elementBytes = true ↔
      Passes (config.checkStructure target elementBytes) () := by
  unfold isLaunchable Passes
  generalize (config.checkStructure target elementBytes).run = outcome
  cases outcome with
  | error fault => simp
  | ok answer => cases answer <;> simp

end Config

theorem Instruction.isFed_eq_ok
    (instruction : Instruction) {kPack kPerBlock : UInt32}
    (small : kPerBlock.toNat * kPack.toNat < UInt32.size) :
    instruction.isFed kPack kPerBlock =
      .ok (decide (instruction.inputLength.toNat ≤ kPerBlock.toNat * kPack.toNat)) := by
  unfold isFed
  rw [show Word.product UInt32.size kPerBlock.toNat kPack.toNat =
    .ok (kPerBlock.toNat * kPack.toNat) from if_pos small]
  rfl

namespace Problem

/-- The configuration passes every check. -/
def Accepts (problem : Problem) (config : Config) : Prop :=
  Passes (problem.validateConfig config) ()

instance (problem : Problem) (config : Config) : Decidable (problem.Accepts config) :=
  inferInstanceAs (Decidable ((problem.validateConfig config).run = .ok (.ok ())))

/-- Where the reduction is split, its parts can be added up and are not empty. -/
def SplitsSoundly (problem : Problem) (splitK : UInt32) : Prop :=
  1 < splitK →
    problem.target.supportsAtomicAdd problem.outType = true ∧
      splitK.toNat ≤ problem.shape.k.toNat

theorem passes_validateMatrix_iff {problem : Problem} {knobs : MatrixKnobs} :
    Passes (problem.validateMatrix knobs) () ↔
      problem.isCoherent (.matrix knobs) = .ok true ∧
        problem.SplitsSoundly knobs.splitK := by
  unfold validateMatrix SplitsSoundly
  simp only [isCoherent]
  cases problem.instruction? knobs with
  | none => simp
  | some instruction =>
      simp only [passes_bind, passes_lift]
      constructor
      · rintro ⟨fed, fedRun, rest⟩
        cases fed with
        | false => simp at rest
        | true =>
            refine ⟨fedRun, ?_⟩
            intro splits
            simp only [if_true, splits] at rest
            by_cases atomic : problem.target.supportsAtomicAdd problem.outType = true
            · simp only [atomic, if_true, passes_lastGuard, and_true] at rest
              exact ⟨atomic, Nat.le_of_not_lt rest⟩
            · simp [atomic] at rest
      · rintro ⟨fedRun, soundly⟩
        refine ⟨true, fedRun, ?_⟩
        by_cases splits : 1 < knobs.splitK
        · obtain ⟨atomic, fine⟩ := soundly splits
          simp [splits, atomic, Nat.not_lt.mpr fine]
        · simp [splits]

theorem accepts_iff {problem : Problem} {config : Config} :
    problem.Accepts config ↔
      problem.validate = .ok () ∧ config.isMatrix = problem.usesMatrix ∧
        config.isLaunchable problem.target problem.aType.bytes = true ∧
        match config with
        | .matrix knobs => Passes (problem.validateMatrix knobs) ()
        | .scalar _ => True := by
  unfold Accepts validateConfig
  cases problem.validate with
  | error fault => simp
  | ok accepted =>
      simp only [passes_guard, passes_bind, passes_adapt, Config.isLaunchable_iff,
        ne_eq, not_not, true_and]
      constructor
      · rintro ⟨path, _, launchable, rest⟩
        refine ⟨path, launchable, ?_⟩
        cases config with
        | matrix knobs => exact rest
        | scalar knobs => trivial
      · rintro ⟨path, launchable, rest⟩
        refine ⟨path, (), launchable, ?_⟩
        cases config with
        | matrix knobs => exact rest
        | scalar knobs => exact passes_pure.mpr rfl

theorem accepts_matrix_iff {problem : Problem} {knobs : MatrixKnobs} :
    problem.Accepts (.matrix knobs) ↔
      problem.validate = .ok () ∧ problem.usesMatrix = true ∧
        (Config.matrix knobs).isLaunchable problem.target problem.aType.bytes = true ∧
        problem.isCoherent (.matrix knobs) = .ok true ∧
        problem.SplitsSoundly knobs.splitK := by
  rw [accepts_iff, eq_comm (a := Config.isMatrix _)]
  simp only [passes_validateMatrix_iff, Config.isMatrix]

theorem accepts_scalar_iff {problem : Problem} {knobs : ScalarKnobs} :
    problem.Accepts (.scalar knobs) ↔
      problem.validate = .ok () ∧ problem.usesMatrix = false ∧
        (Config.scalar knobs).isLaunchable problem.target problem.aType.bytes = true := by
  rw [accepts_iff, eq_comm (a := Config.isMatrix _)]
  simp only [Config.isMatrix, and_true]

/-! ## Applying -/

theorem passes_apply {problem configured : Problem} {config : Config} :
    Passes (problem.apply config) configured ↔
      problem.Accepts config ∧ problem.withConfig config = configured := by
  unfold apply Accepts
  rw [passes_bind]
  constructor
  · rintro ⟨_, accepted, rest⟩
    exact ⟨accepted, passes_pure.mp rest⟩
  · rintro ⟨accepted, rest⟩
    exact ⟨(), accepted, passes_pure.mpr rest⟩

theorem Accepts.passes_apply {problem : Problem} {config : Config}
    (accepts : problem.Accepts config) :
    Passes (problem.apply config) (problem.withConfig config) :=
  Problem.passes_apply.mpr ⟨accepts, rfl⟩

theorem passes_applyText {problem configured : Problem} {text : String} :
    Passes (problem.applyText text) configured ↔
      ∃ config, Config.decode text = .ok config ∧
        Passes (problem.apply config) configured := by
  unfold applyText
  cases Config.decode text with
  | error error => simp
  | ok config => simp

theorem Accepts.passes_applyText {problem : Problem} {config : Config}
    (accepts : problem.Accepts config) (positive : config.Positive) :
    Passes (problem.applyText config.encode) (problem.withConfig config) := by
  have readable : Config.decode config.encode = .ok config :=
    Config.decode_encode positive
  exact Problem.passes_applyText.mpr ⟨config, readable, accepts.passes_apply⟩

/-- Applying writes the configuration and the prefill requests, nothing else. -/
theorem withConfig_eq (problem : Problem) (config : Config) :
    problem.withConfig config =
      { problem with
        config := some config.encode
        prefill := (problem.withConfig config).prefill } := by
  unfold withConfig setResultPrefill
  cases problem.resultPrefill config <;> rfl

/-! ## What the checks depend on -/

/-- The problem without its buffers and without what tuning writes into it. -/
def kernel (problem : Problem) : Problem :=
  { problem with prefill := [], auxiliaryBuffers := [], config := none }

private theorem accepts_kernel {problem : Problem} {config : Config} :
    problem.kernel.Accepts config ↔ problem.Accepts config := by
  cases config with
  | matrix knobs =>
      rw [accepts_matrix_iff, accepts_matrix_iff]
      exact Iff.rfl
  | scalar knobs =>
      rw [accepts_scalar_iff, accepts_scalar_iff]
      exact Iff.rfl

theorem accepts_congr {problem other : Problem} {config : Config}
    (same : problem.kernel = other.kernel) :
    problem.Accepts config ↔ other.Accepts config := by
  rw [← accepts_kernel, same, accepts_kernel]

theorem kernel_withConfig (problem : Problem) (config : Config) :
    (problem.withConfig config).kernel = problem.kernel := by
  rw [withConfig_eq]
  rfl

end Problem

end KernelTuning
