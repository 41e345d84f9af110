import KernelTuning.Proofs.CanonicalText
import KernelTuning.Proofs.TuningSpace

/-!
# Knobs of accepted configurations

The checks divide by some knobs, multiply others and compare the products, which
keeps nearly every knob of an accepted configuration from being zero.  One knob of
each kind of kernel escapes them, and it alone decides whether the configuration can
be read again once it is written.
-/

namespace KernelTuning

open Checked

namespace Config

/-! ## The structural checks as conditions -/

theorem passes_threads_matrix_iff {target : Target} {knobs : MatrixKnobs} {threads : Nat} :
    Passes ((Config.matrix knobs).threads target) threads ↔
      (knobs.mPerWave ≠ 0 ∧ knobs.nPerWave ≠ 0) ∧
        (knobs.mPerBlock % knobs.mPerWave = 0 ∧ knobs.nPerBlock % knobs.nPerWave = 0) ∧
        Word.product UInt64.size knobs.waves target.waveSize.toNat = .ok threads := by
  unfold Config.threads
  simp only [passes_guard, passes_lift, not_or, ne_eq, not_not]

theorem passes_threads_scalar_iff {target : Target} {knobs : ScalarKnobs} {threads : Nat} :
    Passes ((Config.scalar knobs).threads target) threads ↔
      (knobs.mPerThread ≠ 0 ∧ knobs.nPerThread ≠ 0) ∧
        (knobs.mPerBlock % knobs.mPerThread = 0 ∧ knobs.nPerBlock % knobs.nPerThread = 0) ∧
        knobs.threads = knobs.blockSize.toNat ∧ knobs.threads = threads := by
  unfold Config.threads
  simp only [passes_guard, passes_pure, not_or, ne_eq, not_not]

theorem passes_checkStructure_iff
    {target : Target} {elementBytes : Nat} {config : Config} :
    Passes (config.checkStructure target elementBytes) () ↔
      ∃ threads, Passes (config.threads target) threads ∧
        (0 < threads ∧ threads ≤ maxThreads) ∧
        config.ldsFootprint elementBytes ≤ target.ldsBytes.toNat := by
  unfold checkStructure
  rw [passes_bind]
  apply exists_congr
  intro threads
  apply and_congr_right
  intro _
  rw [passes_guard, passes_lastGuard, not_or, Nat.not_lt, Nat.not_lt, Nat.pos_iff_ne_zero]
  simp

/-- The knob of each kind of kernel that no check compares with anything positive. -/
def uncheckedKnob : Config → UInt32
  | .matrix knobs => knobs.splitK
  | .scalar knobs => knobs.kPerBlock

/-- The place of that knob in the text of the configuration. -/
def uncheckedIndex : Config → Nat
  | .matrix _ => 6
  | .scalar _ => 3

/-- The quantities that the checks keep from being zero. -/
def checkedQuantities (config : Config) : List Nat :=
  config.quantities.take config.uncheckedIndex
    ++ config.quantities.drop (config.uncheckedIndex + 1)

theorem quantities_split (config : Config) :
    config.quantities =
      config.quantities.take config.uncheckedIndex
        ++ config.uncheckedKnob.toNat
          :: config.quantities.drop (config.uncheckedIndex + 1) := by
  cases config <;> rfl

private theorem length_take_quantities (config : Config) :
    (config.quantities.take config.uncheckedIndex).length = config.uncheckedIndex := by
  cases config <;> rfl

end Config

/-! ## Which knobs are positive -/

namespace Instruction

private theorem kBase_pos {generation : Generation} {type : ElementType} {side kBase : UInt32}
    {name : String}
    (variant : MfmaInstruction.variant? generation type side = some (name, kBase)) :
    0 < kBase.toNat := by
  cases type with
  | f32 =>
      cases variant
      decide
  | f16 =>
      cases variant
      decide
  | bf16 =>
      cases variant
      decide
  | i8 =>
      unfold MfmaInstruction.variant? at variant
      simp only at variant
      split at variant
      · cases variant
        decide
      · cases variant
        decide
  | i32 => cases variant

/-- Every instruction consumes something. -/
theorem inputLength_pos {target : Target} {a b : ElementType} {m n : UInt32}
    {instruction : Instruction} (selected : select? target a b m n = some instruction) :
    0 < instruction.inputLength.toNat := by
  unfold select? at selected
  split at selected
  · obtain ⟨wmma, wmmaSelected, rfl⟩ := Option.map_eq_some_iff.mp selected
    unfold WmmaInstruction.select? at wmmaSelected
    split at wmmaSelected
    · cases wmmaSelected
    · split at wmmaSelected
      · cases wmmaSelected
      · obtain ⟨name, _, named⟩ := Option.bind_eq_some_iff.mp wmmaSelected
        cases named
        have sixteen : 0 < WmmaInstruction.side.toNat := by decide
        exact sixteen
  · split at selected
    · obtain ⟨mfma, mfmaSelected, rfl⟩ := Option.map_eq_some_iff.mp selected
      unfold MfmaInstruction.select? at mfmaSelected
      split at mfmaSelected
      · cases mfmaSelected
      · obtain ⟨side, _, sided⟩ := Option.bind_eq_some_iff.mp mfmaSelected
        obtain ⟨⟨name, kBase⟩, variant, built⟩ := Option.bind_eq_some_iff.mp sided
        cases built
        exact kBase_pos variant
    · cases selected

end Instruction

theorem Word.product_eq_ok_iff {size left right result : Nat} :
    Word.product size left right = .ok result ↔
      left * right < size ∧ left * right = result := by
  unfold Word.product
  by_cases fits : left * right < size <;> simp [fits]

theorem Word.toNat_pos_iff {word : UInt32} : 0 < word.toNat ↔ word ≠ 0 := by
  rw [Nat.pos_iff_ne_zero, ne_eq, ne_eq, ← UInt32.toNat_inj]
  rfl

theorem MatrixKnobs.block_pos {knobs : MatrixKnobs} (waves : 0 < knobs.waves) :
    0 < knobs.mPerBlock.toNat ∧ 0 < knobs.nPerBlock.toNat := by
  constructor
  · apply Nat.pos_of_ne_zero
    intro empty
    simp [MatrixKnobs.waves, empty] at waves
  · apply Nat.pos_of_ne_zero
    intro empty
    simp [MatrixKnobs.waves, empty] at waves

theorem ScalarKnobs.block_pos {knobs : ScalarKnobs} (threads : 0 < knobs.threads) :
    0 < knobs.mPerBlock.toNat ∧ 0 < knobs.nPerBlock.toNat := by
  constructor
  · apply Nat.pos_of_ne_zero
    intro empty
    simp [ScalarKnobs.threads, empty] at threads
  · apply Nat.pos_of_ne_zero
    intro empty
    simp [ScalarKnobs.threads, empty] at threads

namespace Problem

theorem isFed_of_isCoherent {problem : Problem} {knobs : MatrixKnobs}
    (coherent : problem.isCoherent (.matrix knobs) = .ok true) :
    ∃ instruction, problem.instruction? knobs = some instruction ∧
      instruction.inputLength.toNat ≤ knobs.kPerBlock.toNat * knobs.kPack.toNat := by
  unfold isCoherent at coherent
  simp only at coherent
  split at coherent
  · cases coherent
  · rename_i instruction selected
    refine ⟨instruction, selected, ?_⟩
    unfold Instruction.isFed at coherent
    obtain ⟨elements, multiplied, compared⟩ := bind_eq_ok_iff.mp coherent
    obtain ⟨_, rfl⟩ := Word.product_eq_ok_iff.mp multiplied
    simpa using Except.ok.inj compared

/-- The thread count and the LDS product vanish with a tile, and the instruction's input
length is not reached without K elements. -/
theorem Accepts.checked_positive {problem : Problem} {config : Config}
    (accepts : problem.Accepts config) :
    ∀ quantity, quantity ∈ config.checkedQuantities → 0 < quantity := by
  have launchable := (accepts_iff.mp accepts).2.2.1
  obtain ⟨threads, counted, ⟨positive, _⟩, _⟩ :=
    Config.passes_checkStructure_iff.mp (Config.isLaunchable_iff.mp launchable)
  cases config with
  | matrix knobs =>
      obtain ⟨⟨mPerWave, nPerWave⟩, _, multiplied⟩ :=
        Config.passes_threads_matrix_iff.mp counted
      obtain ⟨_, rfl⟩ := Word.product_eq_ok_iff.mp multiplied
      have block := MatrixKnobs.block_pos (Nat.pos_of_mul_pos_right positive)
      obtain ⟨_, _, _, coherent, _⟩ := accepts_matrix_iff.mp accepts
      obtain ⟨instruction, selected, fed⟩ := isFed_of_isCoherent coherent
      have depth : 0 < knobs.kPerBlock.toNat * knobs.kPack.toNat :=
        Nat.lt_of_lt_of_le (Instruction.inputLength_pos selected) fed
      have kPerBlock := Nat.pos_of_mul_pos_right depth
      have kPack := Nat.pos_of_mul_pos_left depth
      rw [← Word.toNat_pos_iff] at mPerWave nPerWave
      simp [Config.checkedQuantities, Config.quantities, Config.uncheckedIndex, block,
        kPerBlock, mPerWave, nPerWave, kPack]
  | scalar knobs =>
      obtain ⟨⟨mPerThread, nPerThread⟩, _, covered, rfl⟩ :=
        Config.passes_threads_scalar_iff.mp counted
      have block := ScalarKnobs.block_pos positive
      have blockSize : 0 < knobs.blockSize.toNat := covered ▸ positive
      rw [← Word.toNat_pos_iff] at mPerThread nPerThread
      simp [Config.checkedQuantities, Config.quantities, Config.uncheckedIndex, block,
        blockSize, mPerThread, nPerThread]

theorem Accepts.positive_iff {problem : Problem} {config : Config}
    (accepts : problem.Accepts config) : config.Positive ↔ config.uncheckedKnob ≠ 0 := by
  obtain ⟨before, after⟩ := List.forall_mem_append.mp accepts.checked_positive
  rw [← Word.toNat_pos_iff]
  unfold Config.Positive
  rw [config.quantities_split]
  constructor
  · intro positive
    exact positive _ (by simp)
  · intro knob
    exact List.forall_mem_append.mpr ⟨before, List.forall_mem_cons.mpr ⟨knob, after⟩⟩

/-- The one knob that may be zero is the first zero that the reader meets. -/
private theorem Accepts.decode_encode_of_eq_zero {problem : Problem} {config : Config}
    (accepts : problem.Accepts config) (zero : config.uncheckedKnob = 0) :
    Config.decode config.encode = .error (.zeroField config.uncheckedIndex) := by
  have split := config.quantities_eq_take.symm.trans config.quantities_split
  rw [zero] at split
  have count : config.numbers.length = 9 ∨ config.numbers.length = 6 := by
    cases config with
    | matrix knobs => exact .inl rfl
    | scalar knobs => exact .inr rfl
  have flaw := Config.Flaw.zeroField count split
    (List.forall_mem_append.mp accepts.checked_positive).1
  rw [config.length_take_quantities] at flaw
  exact Config.decode_encode_of_flaw flaw

private theorem Accepts.isCoherent_eq {problem : Problem} {config : Config}
    (accepts : problem.Accepts config) :
    problem.isCoherent config =
      .ok (config.isMatrix || decide (config.uncheckedKnob ≠ 0)) := by
  cases config with
  | matrix knobs => exact (accepts_matrix_iff.mp accepts).2.2.2.1
  | scalar knobs =>
      have nonzero : 1 ≤ knobs.kPerBlock ↔ knobs.kPerBlock ≠ 0 := by
        rw [← Word.toNat_pos_iff, UInt32.le_iff_toNat_le]
        rfl
      exact congrArg Except.ok (decide_eq_decide.mpr nonzero)

/-- An accepted configuration can be read back exactly if the one knob that no check
looks at is not zero, and a scalar one is coherent under the same condition.  Applying
leaves such a text in the problem. -/
theorem decode_encode_of_accepts {problem : Problem} {config : Config}
    (accepts : problem.Accepts config) :
    Config.decode config.encode =
      (if config.uncheckedKnob = 0 then .error (.zeroField config.uncheckedIndex)
        else .ok config) ∧
    problem.isCoherent config = .ok (config.isMatrix || decide (config.uncheckedKnob ≠ 0)) ∧
    ∃ configured, Passes (problem.apply config) configured ∧
      configured.config = some config.encode := by
  refine ⟨?_, accepts.isCoherent_eq, problem.withConfig config, accepts.passes_apply, ?_⟩
  · split
    · rename_i zero
      exact accepts.decode_encode_of_eq_zero zero
    · rename_i nonzero
      exact Config.decode_encode (accepts.positive_iff.mpr nonzero)
  · rw [withConfig_eq]

/-- A product on a chip without matrix instructions. -/
def scalarProduct : Problem :=
  .gemm ⟨1, 512, 512, 512⟩ .f32 ⟨"gfx906", .gcn, 64, 60, 65536⟩

theorem decode_encode_of_accepts_scalarProduct :
    scalarProduct.Accepts (.scalar ⟨256, 64, 64, 8, 4, 4⟩) ∧
      Config.decode (Config.scalar ⟨256, 64, 64, 8, 4, 4⟩).encode =
        .ok (.scalar ⟨256, 64, 64, 8, 4, 4⟩) := by
  have accepts : scalarProduct.Accepts (.scalar ⟨256, 64, 64, 8, 4, 4⟩) := by decide
  exact ⟨accepts, (decode_encode_of_accepts accepts).1⟩

/-- A scalar kernel with an empty K tile passes the checks, and so does a matrix kernel
whose reduction is split into no parts. -/
theorem accepts_zeroKnob :
    (scalarProduct.Accepts (.scalar ⟨256, 64, 64, 0, 4, 4⟩) ∧
      Config.decode (Config.scalar ⟨256, 64, 64, 0, 4, 4⟩).encode = .error (.zeroField 3) ∧
      scalarProduct.isCoherent (.scalar ⟨256, 64, 64, 0, 4, 4⟩) = .ok false) ∧
    Space.smallProduct.Accepts (.matrix ⟨64, 64, 8, 32, 32, 4, 0, true, true⟩) ∧
      Config.decode (Config.matrix ⟨64, 64, 8, 32, 32, 4, 0, true, true⟩).encode =
        .error (.zeroField 6) := by
  decide

end Problem

end KernelTuning
