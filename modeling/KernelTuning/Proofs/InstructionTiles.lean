import KernelTuning.Proofs.StepElements
import KernelTuning.Proofs.TunableDepth

/-!
# The tiles of an instruction

An instruction that is found covers the wave tile without a remainder, with as many repeats
along each axis as the wave tile has room for.  It takes operands of the problem's type, adds up
in that type's accumulator, and consumes what the generation and the type say.  Every wave tile
of the grids is even, so on a known chip the depth of a step alone decides which candidates are
coherent.

Main statement: `Instruction.select?_exact`.
-/

namespace KernelTuning

variable {target : Target} {a b : ElementType} {waveSize m n : UInt32}

private theorem evenTile_iff : EvenTile m n ↔ 16 ∣ m.toNat ∧ 16 ∣ n.toNat :=
  and_congr Word.mod_eq_zero_iff Word.mod_eq_zero_iff

/-- Repeats of a side that divides an extent cover the extent. -/
private theorem repeats_mul_side {extent side : UInt32} (divides : extent % side = 0) :
    (extent / side).toNat * side.toNat = extent.toNat := by
  rw [UInt32.toNat_div]
  exact Nat.div_mul_cancel (Word.mod_eq_zero_iff.mp divides)

namespace Instruction

/-- Side of the square tile of one invocation. -/
def side : Instruction → UInt32
  | .wmma _ => WmmaInstruction.side
  | .mfma instruction => instruction.side

def mRepeats : Instruction → UInt32
  | .wmma instruction => instruction.mRepeats
  | .mfma instruction => instruction.mRepeats

def nRepeats : Instruction → UInt32
  | .wmma instruction => instruction.nRepeats
  | .mfma instruction => instruction.nRepeats

def argument : Instruction → ElementType
  | .wmma instruction => instruction.argument
  | .mfma instruction => instruction.argument

def result : Instruction → ElementType
  | .wmma instruction => instruction.result
  | .mfma instruction => instruction.result

/-- The side that instructions of the kind use for a wave tile. -/
def widestSide : Instruction → UInt32 → UInt32 → Nat
  | .wmma _, _, _ => 16
  | .mfma _, m, n => if 32 ∣ m.toNat ∧ 32 ∣ n.toNat then 32 else 16

/-- The instruction covers a wave tile of `m` by `n` for operands of a type. -/
structure Covers (instruction : Instruction) (type : ElementType) (m n : UInt32) : Prop where
  side : instruction.side.toNat = instruction.widestSide m n
  rows : instruction.mRepeats.toNat * instruction.side.toNat = m.toNat
  columns : instruction.nRepeats.toNat * instruction.side.toNat = n.toNat
  argument : instruction.argument = type
  result : instruction.result = type.accumulator

end Instruction

theorem WmmaInstruction.covers_of_select? {instruction : WmmaInstruction}
    (selected : select? a b waveSize m n = some instruction) :
    (Instruction.wmma instruction).Covers a m n := by
  unfold select? at selected
  split at selected
  · cases selected
  · split at selected
    · cases selected
    · rename_i divided
      obtain ⟨rows, columns⟩ : m % side = 0 ∧ n % side = 0 := by simpa using divided
      obtain ⟨name, _, built⟩ := Option.bind_eq_some_iff.mp selected
      cases built
      exact ⟨rfl, repeats_mul_side rows, repeats_mul_side columns, rfl, rfl⟩

namespace MfmaInstruction

private theorem divides_of_sideFor? {side : UInt32} (found : sideFor? m n = some side) :
    m % side = 0 ∧ n % side = 0 := by
  have divides := List.find?_some found
  simpa using divides

/-- The larger side comes first. -/
private theorem toNat_sideFor? {side : UInt32} (found : sideFor? m n = some side) :
    side.toNat = if 32 ∣ m.toNat ∧ 32 ∣ n.toNat then 32 else 16 := by
  have wideIff : (m % 32 == 0 && n % 32 == 0) = true ↔ 32 ∣ m.toNat ∧ 32 ∣ n.toNat := by
    rw [Bool.and_eq_true, beq_iff_eq, beq_iff_eq, Word.mod_eq_zero_iff, Word.mod_eq_zero_iff]
    rfl
  unfold sideFor? at found
  rw [List.find?_cons] at found
  split at found
  · rename_i wide
    cases found
    exact (if_pos (wideIff.mp wide)).symm
  · rename_i narrow
    have uneven : ¬(32 ∣ m.toNat ∧ 32 ∣ n.toNat) :=
      fun divides => Bool.false_ne_true (narrow.symm.trans (wideIff.mpr divides))
    cases List.mem_singleton.mp (List.mem_of_find?_eq_some found)
    exact (if_neg uneven).symm

theorem covers_of_select? {instruction : MfmaInstruction}
    (selected : select? target a b m n = some instruction) :
    (Instruction.mfma instruction).Covers a m n := by
  unfold select? at selected
  split at selected
  · cases selected
  · obtain ⟨side, found, sided⟩ := Option.bind_eq_some_iff.mp selected
    obtain ⟨_, _, built⟩ := Option.bind_eq_some_iff.mp sided
    cases built
    obtain ⟨rows, columns⟩ := divides_of_sideFor? found
    exact ⟨toNat_sideFor? found, repeats_mul_side rows, repeats_mul_side columns, rfl, rfl⟩

end MfmaInstruction

namespace Instruction

theorem covers_of_select? {instruction : Instruction}
    (selected : select? target a b m n = some instruction) : instruction.Covers a m n := by
  unfold select? at selected
  split at selected
  · obtain ⟨instruction, found, rfl⟩ := Option.map_eq_some_iff.mp selected
    exact WmmaInstruction.covers_of_select? found
  · split at selected
    · obtain ⟨instruction, found, rfl⟩ := Option.map_eq_some_iff.mp selected
      exact MfmaInstruction.covers_of_select? found
    · cases selected

/-- A target has one kind of matrix instructions. -/
private theorem waveSize_eq_lanes_iff (supports : target.supportsMatrix a = true) :
    target.waveSize = lanes target ↔
      (target.hasWmma = true → target.waveSize = 32) ∧
        (target.hasMfma = true → target.waveSize = 64) := by
  unfold Target.supportsMatrix at supports
  unfold lanes
  cases wmma : target.hasWmma with
  | true =>
      have noMfma : target.hasMfma = false := by
        unfold Target.hasMfma
        rw [hasWmma_iff.mp wmma]
        rfl
      simp [noMfma]
  | false =>
      cases mfma : target.hasMfma with
      | true => simp
      | false => simp [wmma, mfma] at supports

theorem isSome_select?_iff_divides :
    (select? target a b m n).isSome = true ↔
      a = b ∧ target.supportsMatrix a = true ∧ (16 ∣ m.toNat ∧ 16 ∣ n.toNat) ∧
        (target.hasWmma = true → target.waveSize = 32) ∧
        (target.hasMfma = true → target.waveSize = 64) := by
  rw [isSome_select?_iff, evenTile_iff]
  apply and_congr_right
  intro _
  apply and_congr_right
  intro supports
  rw [waveSize_eq_lanes_iff supports]
  exact and_comm

end Instruction

/-! ## Candidates -/

namespace Space

private theorem MatrixGrid.evenTile_of_mem_points {grid : MatrixGrid} {splitFactors : List UInt32}
    {knobs : MatrixKnobs} (even : grid.wave.all (· % 16 == 0) = true)
    (member : knobs ∈ grid.points splitFactors) : EvenTile knobs.mPerWave knobs.nPerWave := by
  obtain ⟨_, _, _, mPerWave, nPerWave, _⟩ := MatrixGrid.mem_points.mp member
  rw [List.all_eq_true] at even
  exact ⟨beq_iff_eq.mp (even _ mPerWave), beq_iff_eq.mp (even _ nPerWave)⟩

theorem evenTile_of_mem_matrixPoints {level : Level} {splitFactors : List UInt32}
    {knobs : MatrixKnobs} (member : knobs ∈ matrixPoints level splitFactors) :
    EvenTile knobs.mPerWave knobs.nPerWave := by
  cases level with
  | quick =>
      have curated : ∀ knobs, knobs ∈ quickMatrix →
          knobs.mPerWave % 16 = 0 ∧ knobs.nPerWave % 16 = 0 := by decide
      exact curated knobs member
  | full => exact MatrixGrid.evenTile_of_mem_points (by decide) member
  | exhaustive => exact MatrixGrid.evenTile_of_mem_points (by decide) member

end Space

namespace Problem

variable {problem : Problem} {level : Level} {config : Config}

/-- Every wave tile of the grids has an instruction, and all of them consume the same. -/
theorem feeds_iff_of_mem_points (known : problem.target.IsKnown)
    (matrix : problem.usesMatrix = true) (member : config ∈ Space.points problem level) :
    problem.Feeds config ↔ problem.inputLength ≤ config.kElements := by
  unfold Space.points at member
  rw [if_pos matrix] at member
  obtain ⟨knobs, offered, rfl⟩ := List.mem_map.mp member
  obtain ⟨same, supports⟩ := usesMatrix_iff.mp matrix
  obtain ⟨instruction, selected⟩ :
      ∃ instruction, problem.instruction? knobs = some instruction := by
    rw [← Option.isSome_iff_exists]
    exact Instruction.isSome_select?_iff.mpr ⟨same, supports,
      known.waveSize_eq_lanes supports, Space.evenTile_of_mem_matrixPoints offered⟩
  rw [← inputLength_eq selected]
  constructor
  · rintro ⟨_, found, fed⟩
    cases selected.symm.trans found
    exact fed
  · exact fun fed => ⟨instruction, selected, fed⟩

theorem coherent_iff_inputLength_le (known : problem.target.IsKnown)
    (matrix : problem.usesMatrix = true) {space : Space} {candidate : Candidate}
    (built : Space.build problem level = .ok space) (member : candidate ∈ space.candidates) :
    candidate.coherent = true ↔ problem.inputLength ≤ candidate.config.kElements := by
  rw [(coherent_of_mem_candidates built member).2.2]
  obtain ⟨config, point, -, rfl⟩ := (Space.mem_candidates_iff built).mp member
  exact feeds_iff_of_mem_points known matrix point

end Problem

/-- An instruction is found exactly where the target supports the common type of the operands,
its waves are as wide as its instructions need, and the wave tile consists of tiles of 16 by 16.
What is found covers the wave tile with tiles of the widest side, takes and adds up the right
types, and consumes a number of elements that does not depend on the tile.  So on a known chip
the K elements of a step alone decide which candidates of a matrix problem are coherent. -/
theorem Instruction.select?_exact :
    (∀ target a b m n, (select? target a b m n).isSome = true ↔
      a = b ∧ target.supportsMatrix a = true ∧ (16 ∣ m.toNat ∧ 16 ∣ n.toNat) ∧
        (target.hasWmma = true → target.waveSize = 32) ∧
        (target.hasMfma = true → target.waveSize = 64)) ∧
    (∀ target a b m n instruction, select? target a b m n = some instruction →
      instruction.Covers a m n ∧
        instruction.inputLength = lengthFor target.generation a) ∧
    ∀ problem level space, problem.target.IsKnown → problem.usesMatrix = true →
      Space.build problem level = .ok space →
      ∀ candidate, candidate ∈ space.candidates →
        (candidate.coherent = true ↔
          (lengthFor problem.target.generation problem.aType).toNat ≤
            candidate.config.kPerBlock.toNat * candidate.config.kPack.toNat) := by
  refine ⟨fun _ _ _ _ _ => isSome_select?_iff_divides, ?_, ?_⟩
  · intro target a b m n instruction selected
    exact ⟨covers_of_select? selected, inputLength_of_select? selected⟩
  · intro problem level space known matrix built candidate member
    exact Problem.coherent_iff_inputLength_le known matrix built member

/-- Three repeats of the smaller side cover an extent that the larger side does not divide. -/
theorem Instruction.select?_exact_smallProduct :
    (∃ instruction, select? Space.smallProduct.target .f16 .f16 64 48 = some instruction ∧
      instruction.Covers .f16 64 48 ∧ instruction.side = 16 ∧ instruction.nRepeats = 3) ∧
    Space.smallProduct.target.IsKnown ∧ Space.smallProduct.usesMatrix = true ∧
    ∃ space, Space.build Space.smallProduct .quick = .ok space ∧
      ⟨.matrix (Space.curatedMatrix 64 64 8 32 32 4), true⟩ ∈ space.candidates ∧
      (lengthFor .cdna2 .f32).toNat ≤ 8 * 4 := by
  obtain ⟨-, covers, flagged⟩ := select?_exact
  have known : Space.smallProduct.target.IsKnown := ⟨"gfx90a", _, 104, rfl, rfl⟩
  have member : (⟨.matrix (Space.curatedMatrix 64 64 8 32 32 4), true⟩ : Candidate) ∈
      ((Space.points Space.smallProduct .quick).filter (Space.admits Space.smallProduct)).map
        (Space.candidate Space.smallProduct) := by
    decide
  refine ⟨⟨_, rfl, (covers Space.smallProduct.target .f16 .f16 64 48 _ rfl).1, rfl, rfl⟩,
    known, rfl, _, rfl, member, ?_⟩
  exact (flagged _ .quick _ known rfl rfl _ member).mp rfl

end KernelTuning
