import KernelTuning.Proofs.InstructionChoice
import KernelTuning.Proofs.StagedTiles
import KernelTuning.Proofs.TuningReport
import KernelTuning.Proofs.WiderLevels

/-!
# Tunable depths

On a known chip only the length of the reduction decides whether there is anything to measure.
Every level offers one smallest configuration: its tiles fit every padded output, its threads
and its local memory are within the limits of every chip, and its depth is the least that the
level offers and the problem's instruction accepts.

Main statement: `Problem.tunable_iff`.
-/

namespace KernelTuning

open Checked

/-! ## Depths -/

/-- The least depth of a level's configurations that feeds an instruction. -/
def Level.matrixDepth (length : Nat) : Level → Nat
  | .quick => 16
  | .full => max 2 length
  | .exhaustive => length

/-- The least depth of a level's scalar configurations. -/
def Level.scalarDepth : Level → Nat
  | .quick => 8
  | .full | .exhaustive => 4

/-- The input lengths of all instructions. -/
def Instruction.lengths : List Nat := [1, 4, 8, 16]

namespace Problem

/-- K elements that one invocation of the problem's instructions consumes. -/
def inputLength (problem : Problem) : Nat :=
  (Instruction.lengthFor problem.target.generation problem.aType).toNat

/-- The fewest K elements of a step that a level offers and the instructions accept. -/
def leastDepth (problem : Problem) (level : Level) : Nat :=
  if problem.usesMatrix then level.matrixDepth problem.inputLength else level.scalarDepth

end Problem

namespace Space

theorem depth_bounds {length : Nat} (known : length ∈ Instruction.lengths) (level : Level) :
    length ≤ level.matrixDepth length ∧ level.matrixDepth length ≤ 16 := by
  have bounded : ∀ length, length ∈ Instruction.lengths →
      length ≤ max 2 length ∧ max 2 length ≤ 16 ∧ length ≤ 16 := by decide
  obtain ⟨atLeast, atMost, small⟩ := bounded length known
  cases level with
  | quick => exact ⟨small, le_rfl⟩
  | full => exact ⟨atLeast, atMost⟩
  | exhaustive => exact ⟨le_rfl, small⟩

private theorem scalarDepth_le (level : Level) : level.scalarDepth ≤ 16 := by
  cases level <;> decide

/-! ## The smallest configurations -/

def smallestMatrix (depth : Nat) : MatrixKnobs :=
  ⟨32, 32, UInt32.ofNat depth, 16, 16, 1, 1, true, true⟩

def smallestScalar (depth : Nat) : ScalarKnobs :=
  ⟨64, 32, 32, UInt32.ofNat depth, 4, 4⟩

/-- A grid that contains the smallest tiles with a given depth. -/
structure MatrixGrid.OffersSmallest (grid : MatrixGrid) (depth : Nat) : Prop where
  block : 32 ∈ grid.block
  kPerBlock : UInt32.ofNat depth ∈ grid.kPerBlock
  wave : 16 ∈ grid.wave
  kPack : 1 ∈ grid.kPack
  forceUnroll : true ∈ grid.forceUnroll
  bCopyMore : true ∈ grid.bCopyMore

private theorem MatrixGrid.OffersSmallest.mem_points {grid : MatrixGrid} {depth : Nat}
    (offers : grid.OffersSmallest depth) {splitFactors : List UInt32}
    (unsplit : 1 ∈ splitFactors) : smallestMatrix depth ∈ grid.points splitFactors :=
  MatrixGrid.mem_points.mpr ⟨offers.block, offers.block, offers.kPerBlock, offers.wave,
    offers.wave, offers.kPack, unsplit, offers.forceUnroll, offers.bCopyMore⟩

private theorem smallestMatrix_mem {length : Nat} (known : length ∈ Instruction.lengths)
    {level : Level}
    {splitFactors : List UInt32} (unsplit : 1 ∈ splitFactors) :
    smallestMatrix (level.matrixDepth length) ∈ matrixPoints level splitFactors := by
  cases level with
  | quick => exact (by decide : smallestMatrix 16 ∈ quickMatrix)
  | full =>
      have depths : ∀ length, length ∈ Instruction.lengths →
          UInt32.ofNat (max 2 length) ∈ MatrixGrid.full.kPerBlock := by decide
      have offers : MatrixGrid.full.OffersSmallest (max 2 length) :=
        ⟨by decide, depths length known, by decide, by decide, by decide, by decide⟩
      exact offers.mem_points unsplit
  | exhaustive =>
      have depths : ∀ length, length ∈ Instruction.lengths →
          UInt32.ofNat length ∈ MatrixGrid.exhaustive.kPerBlock := by decide
      have offers : MatrixGrid.exhaustive.OffersSmallest length :=
        ⟨by decide, depths length known, by decide, by decide, by decide, by decide⟩
      exact offers.mem_points unsplit

private theorem smallestScalar_mem (level : Level) :
    smallestScalar level.scalarDepth ∈ scalarPoints level := by
  cases level with
  | quick => exact (by decide : smallestScalar 8 ∈ quickScalar)
  | full => exact ScalarGrid.mem_points.mpr (by decide)
  | exhaustive => exact ScalarGrid.mem_points.mpr (by decide)

theorem toNat_depth {depth : Nat} (small : depth ≤ 16) : (UInt32.ofNat depth).toNat = depth :=
  UInt32.toNat_ofNat_of_lt (small.trans_lt (by decide))

section Limits

variable {target : Target} (known : target.IsKnown) (type : ElementType) {depth : Nat}
  (small : depth ≤ 16)

include known small

theorem staged_le_ldsBytes {bytes : Nat} (narrow : bytes ≤ 4) :
    (32 + 32) * (UInt32.ofNat depth).toNat * 1 * bytes ≤ target.ldsBytes.toNat := by
  rw [toNat_depth small, known.capacities.2.2]
  calc (32 + 32) * depth * 1 * bytes
      ≤ (32 + 32) * 16 * 1 * 4 :=
        Nat.mul_le_mul (Nat.mul_le_mul_right 1 (Nat.mul_le_mul_left _ small)) narrow
    _ ≤ Target.workgroupLdsBytes.toNat := by decide

/-- Four waves, of at most 64 lanes. -/
private theorem fits_smallestMatrix :
    (Config.matrix (smallestMatrix depth)).Fits target type.bytes := by
  have lanes : 1 ≤ target.waveSize.toNat ∧ target.waveSize.toNat ≤ 64 := by
    rw [known.capacities.2.1]
    cases target.generation <;> decide
  have waves : (smallestMatrix depth).waves = 4 :=
    (by decide : (32 : UInt32).toNat / (16 : UInt32).toNat *
      ((32 : UInt32).toNat / (16 : UInt32).toNat) = 4)
  refine ⟨Config.tiled_matrix_iff.mpr ⟨⟨?_, ?_⟩, ?_, ?_⟩, trivial, ?_, ?_⟩
  · exact (by decide : (16 : UInt32) ≠ 0)
  · exact (by decide : (16 : UInt32) ≠ 0)
  · exact (by decide : (32 : UInt32) % 16 = 0)
  · exact (by decide : (32 : UInt32) % 16 = 0)
  · rw [Config.threadCount_matrix, waves]
    omega
  · exact staged_le_ldsBytes known small type.bytes_le

private theorem fits_smallestScalar :
    (Config.scalar (smallestScalar depth)).Fits target type.bytes := by
  have threads : (smallestScalar depth).threads = 64 :=
    (by decide : (32 : UInt32).toNat / (4 : UInt32).toNat *
      ((32 : UInt32).toNat / (4 : UInt32).toNat) = 64)
  refine ⟨Config.tiled_scalar_iff.mpr ⟨⟨?_, ?_⟩, ?_, ?_⟩, threads, ?_, ?_⟩
  · exact (by decide : (4 : UInt32) ≠ 0)
  · exact (by decide : (4 : UInt32) ≠ 0)
  · exact (by decide : (32 : UInt32) % 4 = 0)
  · exact (by decide : (32 : UInt32) % 4 = 0)
  · rw [Config.threadCount_scalar, threads]
    decide
  · exact staged_le_ldsBytes known small type.bytes_le

end Limits

/-! ## Nothing is smaller -/

private theorem matrixDepth_le {level : Level} {splitFactors : List UInt32} {knobs : MatrixKnobs}
    (member : knobs ∈ matrixPoints level splitFactors) {length : Nat}
    (fed : length ≤ knobs.kPerBlock.toNat * knobs.kPack.toNat) :
    level.matrixDepth length ≤ knobs.kPerBlock.toNat * knobs.kPack.toNat := by
  cases level with
  | quick =>
      have curated : ∀ knobs, knobs ∈ quickMatrix →
          16 ≤ knobs.kPerBlock.toNat * knobs.kPack.toNat := by decide
      exact curated knobs member
  | full =>
      obtain ⟨_, _, kPerBlock, _, _, kPack, _⟩ := MatrixGrid.mem_points.mp member
      have depths : Ranges 2 16 MatrixGrid.full.kPerBlock := by decide
      have packs : Ranges 1 8 MatrixGrid.full.kPack := by decide
      exact max_le (Nat.mul_le_mul (depths _ kPerBlock).1 (packs _ kPack).1) fed
  | exhaustive => exact fed

private theorem scalarDepth_le_of_mem {level : Level} {knobs : ScalarKnobs}
    (member : knobs ∈ scalarPoints level) : level.scalarDepth ≤ knobs.kPerBlock.toNat := by
  cases level with
  | quick =>
      have curated : ∀ knobs, knobs ∈ quickScalar → 8 ≤ knobs.kPerBlock.toNat := by decide
      exact curated knobs member
  | full =>
      have depths : Ranges 4 16 ScalarGrid.full.kPerBlock := by decide
      exact (depths _ (ScalarGrid.mem_points.mp member).2.2.2.1).1
  | exhaustive =>
      have depths : Ranges 4 32 ScalarGrid.exhaustive.kPerBlock := by decide
      exact (depths _ (ScalarGrid.mem_points.mp member).2.2.2.1).1

private theorem Modest.splitK_pos {config : Config} (modest : Modest config) :
    0 < config.splitK.toNat := by
  cases config with
  | matrix knobs => exact (modest knobs.splitK.toNat (by simp [Config.quantities])).1
  | scalar knobs => exact Nat.one_pos

end Space

/-! ## The instruction of the smallest tile -/

theorem Target.IsKnown.waveSize_eq_lanes {target : Target} (known : target.IsKnown)
    {type : ElementType} (supports : target.supportsMatrix type = true) :
    target.waveSize = Instruction.lanes target := by
  rw [known.capacities.2.1]
  unfold Target.supportsMatrix Target.hasMfma at supports
  unfold Instruction.lanes
  unfold Target.hasWmma at supports ⊢
  generalize target.generation = generation at supports ⊢
  cases generation with
  | gcn | rdna2 => exact absurd supports Bool.false_ne_true
  | cdna1 | cdna2 | cdna3 | rdna3 => rfl

namespace Problem

variable {problem : Problem} {level : Level} {config : Config}

/-- Every instruction for the problem's operands consumes the same. -/
theorem inputLength_eq {m n : UInt32} {instruction : Instruction}
    (selected : Instruction.select? problem.target problem.aType problem.bType m n =
      some instruction) : instruction.inputLength.toNat = problem.inputLength :=
  congrArg UInt32.toNat (Instruction.inputLength_of_select? selected)

theorem exists_instruction (known : problem.target.IsKnown)
    (matrix : problem.usesMatrix = true) :
    ∃ instruction,
      Instruction.select? problem.target problem.aType problem.bType 16 16 = some instruction := by
  obtain ⟨same, supports⟩ := usesMatrix_iff.mp matrix
  rw [← Option.isSome_iff_exists, Instruction.isSome_select?_iff]
  exact ⟨same, supports, known.waveSize_eq_lanes supports, by decide, by decide⟩

theorem inputLength_mem (problem : Problem) : problem.inputLength ∈ Instruction.lengths := by
  unfold inputLength
  generalize problem.target.generation = generation
  generalize problem.aType = type
  cases generation <;> cases type <;> decide

/-! ## The smallest configuration of a problem -/

/-- A configuration of the level with small tiles and the least depth. -/
def smallest (problem : Problem) (level : Level) : Config :=
  if problem.usesMatrix then .matrix (Space.smallestMatrix (problem.leastDepth level))
  else .scalar (Space.smallestScalar (problem.leastDepth level))

theorem leastDepth_le (problem : Problem) (level : Level) : problem.leastDepth level ≤ 16 := by
  unfold leastDepth
  split
  · exact (Space.depth_bounds problem.inputLength_mem level).2
  · exact Space.scalarDepth_le level

private theorem smallest_mem_points : problem.smallest level ∈ Space.points problem level := by
  unfold smallest leastDepth Space.points
  split
  · exact List.mem_map_of_mem (Space.smallestMatrix_mem problem.inputLength_mem
      (Space.one_mem_factors problem level))
  · exact List.mem_map_of_mem (Space.smallestScalar_mem level)

private theorem fits_smallest (known : problem.target.IsKnown) :
    (problem.smallest level).Fits problem.target problem.aType.bytes := by
  unfold smallest
  split
  · exact Space.fits_smallestMatrix known _ (problem.leastDepth_le level)
  · exact Space.fits_smallestScalar known _ (problem.leastDepth_le level)

private theorem fitsShape_smallest
    (deep : problem.leastDepth level ≤ Word.nextPower problem.shape.k) :
    Space.fitsShape problem.shape (problem.smallest level) = true := by
  have depth := Space.toNat_depth (problem.leastDepth_le level)
  have exact : (UInt32.ofNat (problem.leastDepth level)).toNat * 1 * 1 ≤
      Word.nextPower problem.shape.k := by
    rw [depth, Nat.mul_one, Nat.mul_one]
    exact deep
  rw [Space.fitsShape_iff]
  unfold smallest
  split
  · exact ⟨le_max_left _ _, le_max_left _ _, exact⟩
  · exact ⟨le_max_left _ _, le_max_left _ _, exact⟩

private theorem isCoherent_smallest (known : problem.target.IsKnown) :
    problem.isCoherent (problem.smallest level) = .ok true := by
  have small := problem.leastDepth_le level
  have depth := Space.toNat_depth small
  unfold smallest
  split
  · rename_i matrix
    obtain ⟨instruction, selected⟩ := problem.exists_instruction known matrix
    have elements : (UInt32.ofNat (problem.leastDepth level)).toNat * (1 : UInt32).toNat =
        problem.leastDepth level := by
      rw [depth]
      exact Nat.mul_one _
    have fed : instruction.inputLength.toNat ≤ problem.leastDepth level := by
      rw [inputLength_eq selected, leastDepth, if_pos matrix]
      exact (Space.depth_bounds problem.inputLength_mem level).1
    have found : problem.instruction? (Space.smallestMatrix (problem.leastDepth level)) =
        some instruction := selected
    simp only [isCoherent, found]
    rw [Instruction.isFed_eq_ok]
    · exact congrArg Except.ok (decide_eq_true (fed.trans_eq elements.symm))
    · exact elements.trans_lt (small.trans_lt (by decide))
  · rename_i scalar
    have positive : 1 ≤ problem.leastDepth level := by
      rw [leastDepth, if_neg scalar]
      cases level <;> decide
    have nonempty : 1 ≤ UInt32.ofNat (problem.leastDepth level) :=
      UInt32.le_iff_toNat_le.mpr (positive.trans_eq depth.symm)
    exact congrArg Except.ok (decide_eq_true nonempty)

/-! ## The depth of a problem's configurations -/

private theorem leastDepth_le_kElements (member : config ∈ Space.points problem level)
    (coherent : problem.isCoherent config = .ok true) :
    problem.leastDepth level ≤ config.kElements := by
  unfold leastDepth
  unfold Space.points at member
  split at member
  · rename_i matrix
    rw [if_pos matrix]
    obtain ⟨knobs, offered, rfl⟩ := List.mem_map.mp member
    obtain ⟨instruction, selected, fed⟩ := isFed_of_isCoherent coherent
    rw [inputLength_eq selected] at fed
    exact Space.matrixDepth_le offered fed
  · rename_i scalar
    rw [if_neg scalar]
    obtain ⟨knobs, offered, rfl⟩ := List.mem_map.mp member
    have depth := Space.scalarDepth_le_of_mem offered
    exact depth.trans_eq (Nat.mul_one _).symm

private theorem le_nextPower_iff {depth : Nat} (small : depth ≤ 16) {extent : UInt64} :
    depth ≤ Word.nextPower extent ↔ depth ≤ 2 ^ Nat.clog 2 extent.toNat := by
  unfold Word.nextPower
  omega

/-- Whatever can be used is at least as deep as the smallest configuration, and the smallest
configuration can be used if there is room for its depth. -/
theorem exists_usable_iff (known : problem.target.IsKnown) :
    (∃ config, config ∈ Space.points problem level ∧ Space.usable problem config = true) ↔
      problem.leastDepth level ≤ 2 ^ Nat.clog 2 problem.shape.k.toNat := by
  rw [← le_nextPower_iff (problem.leastDepth_le level)]
  constructor
  · rintro ⟨config, member, usable⟩
    obtain ⟨_, fits, coherent⟩ := Space.usable_iff.mp usable
    calc problem.leastDepth level
        ≤ config.kElements := leastDepth_le_kElements member coherent
      _ ≤ config.kElements * config.splitK.toNat :=
          Nat.le_mul_of_pos_right _ (Space.modest_of_mem_points member).splitK_pos
      _ ≤ Word.nextPower problem.shape.k := (Space.fitsShape_iff.mp fits).2.2
  · intro deep
    refine ⟨problem.smallest level, smallest_mem_points, Space.usable_iff.mpr ⟨?_, ?_, ?_⟩⟩
    · exact Config.isLaunchable_iff.mpr
        (Config.passes_checkStructure_iff_fits.mpr (fits_smallest known))
    · exact fitsShape_smallest deep
    · exact isCoherent_smallest known

theorem valid_ne_nil_iff (known : problem.target.IsKnown) {space : Space}
    (built : Space.build problem level = .ok space) :
    space.valid ≠ [] ↔ problem.leastDepth level ≤ 2 ^ Nat.clog 2 problem.shape.k.toNat := by
  rw [Space.valid_eq_filter built, ← exists_usable_iff known, ne_eq, List.filter_eq_nil_iff]
  simp only [not_forall, not_not, exists_prop]

theorem exists_build (validated : problem.validate = .ok ()) (level : Level) :
    ∃ space, Space.build problem level = .ok space :=
  ⟨_, Space.build_eq_ok_iff.mpr ⟨validated, rfl⟩⟩

theorem exists_valid_iff (known : problem.target.IsKnown)
    (validated : problem.validate = .ok ()) :
    (∃ space, Space.build problem level = .ok space ∧ space.valid ≠ []) ↔
      problem.leastDepth level ≤ 2 ^ Nat.clog 2 problem.shape.k.toNat := by
  obtain ⟨space, built⟩ := exists_build validated level
  rw [← valid_ne_nil_iff known built, built]
  constructor
  · rintro ⟨_, ⟨⟩, valid⟩
    exact valid
  · exact fun valid => ⟨space, rfl, valid⟩

end Problem

/-! ## Tuning without a cap -/

namespace Tuner

variable {options : TunerOptions} {benchmark : Benchmark} {problem : Problem} {table : Table}

theorem passes_tune_iff {outcome : Outcome} {next : Table} :
    Passes (tune options benchmark problem table) (outcome, next) ↔
      call options benchmark problem table = .ok (.ok outcome, next) := by
  unfold Passes call
  rw [bind_eq_ok_iff]
  constructor
  · intro tuned
    exact ⟨_, tuned, rfl⟩
  · rintro ⟨answer, tuned, rest⟩
    cases answer with
    | error fault => cases rest
    | ok answer =>
        cases rest
        exact tuned

/-- All usable configurations may be combined with the fused operations. -/
private theorem candidates_uncapped {space : Space} (uncapped : options.maxCandidates = none)
    (built : Space.build problem options.level = .ok space) :
    candidates options problem space = space.valid := by
  unfold candidates
  rw [uncapped]
  exact List.filter_eq_self.mpr fun _ member => (Space.suits_of_mem_valid built member).fusible

theorem exists_passes_tune_iff (validated : problem.validate = .ok ()) {space : Space}
    (built : Space.build problem options.level = .ok space) :
    (∃ answer, Passes (tune options benchmark problem table) answer) ↔
      candidates options problem space ≠ [] := by
  obtain ⟨key, signed⟩ : ∃ key, problem.signature = .ok key :=
    ⟨_, Problem.signature_eq_ok_iff.mpr ⟨validated, rfl⟩⟩
  constructor
  · rintro ⟨⟨outcome, next⟩, tuned⟩ nothing
    cases (passes_tune_iff.mp tuned).symm.trans (call_of_nil signed built nothing)
  · intro something
    exact ⟨_, passes_tune_iff.mpr (call_of_ne_nil signed built something)⟩

end Tuner

namespace Problem

/-- Nine elements are padded to sixteen, which every level and instruction can do with. -/
theorem leastDepth_le_of_long {problem : Problem} (long : 9 ≤ problem.shape.k.toNat)
    (level : Level) : problem.leastDepth level ≤ 2 ^ Nat.clog 2 problem.shape.k.toNat := by
  have exponent : 4 ≤ Nat.clog 2 problem.shape.k.toNat :=
    (Nat.lt_clog_iff_pow_lt (by decide)).mpr (by omega)
  calc problem.leastDepth level
      ≤ 2 ^ 4 := problem.leastDepth_le level
    _ ≤ 2 ^ Nat.clog 2 problem.shape.k.toNat := Nat.pow_le_pow_right Nat.two_pos exponent

/-- On a known chip a valid problem has something to measure at a level exactly if the padded
length of its reduction reaches the level's depth, and tuning without a cap succeeds exactly
there.  Nine elements are enough.  The depth follows from the kernel path, the level, and the
input length that all instructions for the operands share. -/
theorem tunable_iff (problem : Problem) (known : problem.target.IsKnown)
    (validated : problem.validate = .ok ()) :
    (∀ level, (∃ space, Space.build problem level = .ok space ∧ space.valid ≠ []) ↔
      problem.leastDepth level ≤ 2 ^ Nat.clog 2 problem.shape.k.toNat) ∧
    (∀ options benchmark table, options.maxCandidates = none →
      ((∃ answer, Passes (Tuner.tune options benchmark problem table) answer) ↔
        problem.leastDepth options.level ≤ 2 ^ Nat.clog 2 problem.shape.k.toNat)) ∧
    (9 ≤ problem.shape.k.toNat →
      ∀ level, ∃ space, Space.build problem level = .ok space ∧ space.valid ≠ []) ∧
    (∀ m n instruction,
      Instruction.select? problem.target problem.aType problem.bType m n = some instruction →
        instruction.inputLength.toNat = problem.inputLength) ∧
    (problem.usesMatrix = true →
      ∃ instruction, Instruction.select? problem.target problem.aType problem.bType 16 16 =
        some instruction) := by
  refine ⟨fun level => exists_valid_iff known validated, ?_, ?_, fun _ _ _ => inputLength_eq,
    exists_instruction known⟩
  · intro options benchmark table uncapped
    obtain ⟨space, built⟩ := exists_build validated options.level
    rw [Tuner.exists_passes_tune_iff validated built, Tuner.candidates_uncapped uncapped built,
      valid_ne_nil_iff known built]
  · intro long level
    exact (exists_valid_iff known validated).mpr (leastDepth_le_of_long long level)

/-- A product whose reduction has three elements. -/
def shortReduction : Problem :=
  gemm ⟨1, 64, 64, 3⟩ .f32 ⟨"gfx90a", .cdna2, 64, 104, 65536⟩

/-- The curated list is too deep for a short reduction, the grids are not. -/
theorem tunable_iff_shortReduction :
    shortReduction.target.IsKnown ∧ shortReduction.validate = .ok () ∧
      ¬(∃ space, Space.build shortReduction .quick = .ok space ∧ space.valid ≠ []) ∧
      ∃ space, Space.build shortReduction .full = .ok space ∧ space.valid ≠ [] := by
  have known : shortReduction.target.IsKnown := ⟨"gfx90a", _, 104, rfl, rfl⟩
  obtain ⟨spaces, -⟩ := tunable_iff shortReduction known rfl
  refine ⟨known, rfl, ?_, ?_⟩
  · rw [spaces .quick]
    decide
  · rw [spaces .full]
    decide

end Problem

end KernelTuning
