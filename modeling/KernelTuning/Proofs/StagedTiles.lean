import KernelTuning.Proofs.StructuralLimits

/-!
# Staged tiles

A kernel stages a tile of each operand in local memory.  The structural check measures both
tiles with the size of the first operand's elements.  Where the second operand is not wider,
what is accepted fits; where it is wider, local memory that holds two elements is enough for an
accepted configuration that does not fit.  The grids stay small enough for every known chip.

Main statement: `Problem.stagedBytes_le_iff`.
-/

namespace KernelTuning

namespace ElementType

theorem bytes_le (type : ElementType) : type.bytes ≤ 4 := by
  cases type <;> decide

private theorem two_mul_bytes_le {narrow wide : ElementType} (wider : narrow.bytes < wide.bytes) :
    2 * narrow.bytes ≤ wide.bytes := by
  revert wider
  cases narrow <;> cases wide <;> decide

end ElementType

namespace Problem

variable {problem : Problem} {config : Config}

/-- Bytes of the two tiles, each with the size of its own elements. -/
def stagedBytes (problem : Problem) (config : Config) : Nat :=
  config.kElements *
    (config.mPerBlock.toNat * problem.aType.bytes + config.nPerBlock.toNat * problem.bType.bytes)

/-- The configuration's tiles fit the target's local memory. -/
def Stages (problem : Problem) (config : Config) : Prop :=
  problem.stagedBytes config ≤ problem.target.ldsBytes.toNat

theorem usesMatrix_iff :
    problem.usesMatrix = true ↔
      problem.aType = problem.bType ∧ problem.target.supportsMatrix problem.aType = true := by
  rw [usesMatrix, Bool.and_eq_true, beq_iff_eq]

/-! ## Operands of one width -/

theorem stages_of_fits (fits : config.Fits problem.target problem.aType.bytes)
    (narrow : problem.bType.bytes ≤ problem.aType.bytes) : problem.Stages config :=
  calc problem.stagedBytes config
      ≤ config.kElements * (config.mPerBlock.toNat * problem.aType.bytes +
          config.nPerBlock.toNat * problem.aType.bytes) :=
        Nat.mul_le_mul_left _ (Nat.add_le_add_left (Nat.mul_le_mul_left _ narrow) _)
    _ = (config.mPerBlock.toNat + config.nPerBlock.toNat) * config.kPerBlock.toNat *
          config.kPack.toNat * problem.aType.bytes := by
        rw [Config.kElements, ← Nat.add_mul, ← Nat.mul_assoc, Nat.mul_comm (_ * _) (_ + _),
          ← Nat.mul_assoc]
    _ ≤ problem.target.ldsBytes.toNat := fits.memory

theorem Accepts.fits (accepts : problem.Accepts config) :
    config.Fits problem.target problem.aType.bytes :=
  Config.passes_checkStructure_iff_fits.mp
    (Config.isLaunchable_iff.mp (accepts_iff.mp accepts).2.2.1)

/-- Local memory for less than two elements leaves no room for a step of the main loop. -/
private theorem stages_of_tiny (fits : config.Fits problem.target problem.aType.bytes)
    (tiny : problem.target.ldsBytes.toNat < 2 * problem.aType.bytes) :
    problem.Stages config := by
  obtain ⟨rows, columns⟩ := Config.block_pos_of_threadCount_pos fits.threads.1
  have idle : config.kElements = 0 := by
    apply Nat.eq_zero_of_not_pos
    intro busy
    have two : 2 ≤ (config.mPerBlock.toNat + config.nPerBlock.toNat) * config.kElements :=
      Nat.mul_le_mul (by omega : 2 ≤ _) (Nat.succ_le_of_lt busy)
    have memory := fits.memory
    rw [Nat.mul_assoc _ config.kPerBlock.toNat] at memory
    have staged := (Nat.mul_le_mul_right problem.aType.bytes two).trans memory
    omega
  rw [Stages, stagedBytes, idle, Nat.zero_mul]
  exact Nat.zero_le _

/-! ## A wider second operand -/

/-- One thread with a tile of one row that fills local memory, as the check measures it. -/
def longRow (problem : Problem) : Config :=
  let columns := UInt32.ofNat (problem.target.ldsBytes.toNat / problem.aType.bytes - 1)
  .scalar ⟨1, 1, columns, 1, 1, columns⟩

private theorem toNat_longRow (problem : Problem) :
    problem.longRow.nPerBlock.toNat =
      problem.target.ldsBytes.toNat / problem.aType.bytes - 1 := by
  have elements := Nat.div_le_self problem.target.ldsBytes.toNat problem.aType.bytes
  have word := problem.target.ldsBytes.toNat_lt_size
  exact UInt32.toNat_ofNat_of_lt (by omega)

/-- Two elements fit, so that the row has a column. -/
private theorem exists_columns (roomy : 2 * problem.aType.bytes ≤ problem.target.ldsBytes.toNat) :
    ∃ further, problem.longRow.nPerBlock.toNat = further + 1 ∧
      problem.target.ldsBytes.toNat / problem.aType.bytes = further + 2 := by
  have two := (Nat.le_div_iff_mul_le problem.aType.bytes_pos).mpr roomy
  refine ⟨problem.target.ldsBytes.toNat / problem.aType.bytes - 2, ?_, by omega⟩
  rw [toNat_longRow]
  omega

private theorem fits_longRow (roomy : 2 * problem.aType.bytes ≤ problem.target.ldsBytes.toNat) :
    problem.longRow.Fits problem.target problem.aType.bytes := by
  obtain ⟨further, columns, elements⟩ := exists_columns roomy
  have positive : 0 < problem.longRow.nPerBlock.toNat := by omega
  have single : ∀ {columns : Nat}, 0 < columns → 1 / 1 * (columns / columns) = 1 :=
    fun positive => by rw [Nat.div_self positive]
  refine ⟨⟨⟨Nat.one_pos, positive⟩, Nat.dvd_refl 1, Nat.dvd_refl _⟩, single positive, ?_, ?_⟩
  · rw [show problem.longRow.threadCount problem.target = 1 from single positive]
    decide
  · calc (1 + problem.longRow.nPerBlock.toNat) * 1 * 1 * problem.aType.bytes
        = problem.target.ldsBytes.toNat / problem.aType.bytes * problem.aType.bytes := by
          rw [Nat.mul_one, Nat.mul_one]
          congr 1
          omega
      _ ≤ problem.target.ldsBytes.toNat := Nat.div_mul_le_self _ _

private theorem not_stages_longRow (wider : problem.aType.bytes < problem.bType.bytes)
    (roomy : 2 * problem.aType.bytes ≤ problem.target.ldsBytes.toNat) :
    ¬problem.Stages problem.longRow := by
  obtain ⟨further, columns, elements⟩ := exists_columns roomy
  rw [Stages, Nat.not_le]
  calc problem.target.ldsBytes.toNat
      < (further + 3) * problem.aType.bytes := by
        rw [← Nat.div_lt_iff_lt_mul problem.aType.bytes_pos, elements]
        exact Nat.lt_succ_self _
    _ ≤ (1 + (further + 1) * 2) * problem.aType.bytes := Nat.mul_le_mul_right _ (by omega)
    _ = problem.aType.bytes + (further + 1) * (2 * problem.aType.bytes) := by
        rw [Nat.add_mul, Nat.one_mul, Nat.mul_assoc]
    _ ≤ problem.aType.bytes + (further + 1) * problem.bType.bytes :=
        Nat.add_le_add_left (Nat.mul_le_mul_left _ (ElementType.two_mul_bytes_le wider)) _
    _ = problem.stagedBytes problem.longRow := by
        rw [← columns]
        change _ = 1 * 1 * (1 * _ + _)
        rw [Nat.mul_one, Nat.one_mul, Nat.one_mul]

/-- Operands of different types are staged by a scalar kernel, whose checks are structural. -/
private theorem accepts_longRow (validated : problem.validate = .ok ())
    (wider : problem.aType.bytes < problem.bType.bytes)
    (roomy : 2 * problem.aType.bytes ≤ problem.target.ldsBytes.toNat) :
    problem.Accepts problem.longRow := by
  have different : problem.aType ≠ problem.bType := by
    intro same
    exact Nat.lt_irrefl _ (same ▸ wider)
  have scalar : problem.usesMatrix = false :=
    Bool.eq_false_iff.mpr fun matrix => different (usesMatrix_iff.mp matrix).1
  exact accepts_scalar_iff.mpr ⟨validated, scalar,
    Config.isLaunchable_iff.mpr (Config.passes_checkStructure_iff_fits.mpr (fits_longRow roomy))⟩

theorem forall_stages_iff :
    (∀ config, problem.Accepts config → problem.Stages config) ↔
      problem.validate ≠ .ok () ∨ problem.bType.bytes ≤ problem.aType.bytes ∨
        problem.target.ldsBytes.toNat < 2 * problem.aType.bytes := by
  constructor
  · intro staged
    apply Classical.byContradiction
    intro neither
    obtain ⟨validated, wider, roomy⟩ : problem.validate = .ok () ∧
        problem.aType.bytes < problem.bType.bytes ∧
        2 * problem.aType.bytes ≤ problem.target.ldsBytes.toNat := by
      simpa only [not_or, ne_eq, not_not, Nat.not_le, Nat.not_lt] using neither
    exact not_stages_longRow wider roomy (staged _ (accepts_longRow validated wider roomy))
  · rintro (invalid | narrow | tiny) config accepts
    · exact absurd (accepts_iff.mp accepts).1 invalid
    · exact stages_of_fits accepts.fits narrow
    · exact stages_of_tiny accepts.fits tiny

end Problem

/-! ## The grids -/

namespace Space

/-- Every value of a knob lies between two bounds. -/
def Ranges (least most : Nat) (values : List UInt32) : Prop :=
  ∀ value, value ∈ values → least ≤ value.toNat ∧ value.toNat ≤ most

instance (least most : Nat) (values : List UInt32) : Decidable (Ranges least most values) :=
  List.decidableBAll _ _

/-- The largest tiles that a level offers to scalar kernels. -/
def ScalarBound (knobs : ScalarKnobs) : Prop :=
  knobs.mPerBlock.toNat ≤ 128 ∧ knobs.nPerBlock.toNat ≤ 128 ∧ knobs.kPerBlock.toNat ≤ 32

instance (knobs : ScalarKnobs) : Decidable (ScalarBound knobs) :=
  inferInstanceAs (Decidable (_ ∧ _))

private theorem ScalarGrid.scalarBound_of_mem_points {grid : ScalarGrid} {knobs : ScalarKnobs}
    (block : Ranges 0 128 grid.block) (kPerBlock : Ranges 0 32 grid.kPerBlock)
    (member : knobs ∈ grid.points) : ScalarBound knobs := by
  obtain ⟨_, mPerBlock, nPerBlock, kTile, _⟩ := ScalarGrid.mem_points.mp member
  exact ⟨(block _ mPerBlock).2, (block _ nPerBlock).2, (kPerBlock _ kTile).2⟩

theorem scalarBound_of_mem_scalarPoints {level : Level} {knobs : ScalarKnobs}
    (member : knobs ∈ scalarPoints level) : ScalarBound knobs := by
  cases level with
  | quick =>
      revert knobs
      change ∀ knobs, knobs ∈ quickScalar → _
      decide
  | full => exact ScalarGrid.scalarBound_of_mem_points (by decide) (by decide) member
  | exhaustive => exact ScalarGrid.scalarBound_of_mem_points (by decide) (by decide) member

end Space

namespace Problem

variable {problem : Problem}

theorem stages_of_scalarBound {knobs : ScalarKnobs} (bound : Space.ScalarBound knobs)
    (roomy : 32768 ≤ problem.target.ldsBytes.toNat) : problem.Stages (.scalar knobs) := by
  obtain ⟨rows, columns, depth⟩ := bound
  calc problem.stagedBytes (.scalar knobs)
      ≤ 32 * 1 * (128 * 4 + 128 * 4) :=
        Nat.mul_le_mul (Nat.mul_le_mul depth (Nat.le_refl 1))
          (Nat.add_le_add (Nat.mul_le_mul rows problem.aType.bytes_le)
            (Nat.mul_le_mul columns problem.bType.bytes_le))
    _ = 32768 := by decide
    _ ≤ problem.target.ldsBytes.toNat := roomy

theorem stages_of_mem_candidates {level : Level} {space : Space} {candidate : Candidate}
    (narrowOrRoomy : problem.bType.bytes ≤ problem.aType.bytes ∨
      32768 ≤ problem.target.ldsBytes.toNat)
    (built : Space.build problem level = .ok space) (member : candidate ∈ space.candidates) :
    problem.Stages candidate.config := by
  obtain ⟨config, point, admitted, rfl⟩ := (Space.mem_candidates_iff built).mp member
  have fits : config.Fits problem.target problem.aType.bytes :=
    Config.passes_checkStructure_iff_fits.mp (Space.admits_iff.mp admitted).1
  change problem.Stages config
  rcases narrowOrRoomy with narrow | roomy
  · exact stages_of_fits fits narrow
  · unfold Space.points at point
    split at point
    · rename_i matrix
      -- Both operands of a matrix instruction have one type.
      have same : problem.aType = problem.bType := (usesMatrix_iff.mp matrix).1
      exact stages_of_fits fits (same ▸ Nat.le_refl _)
    · obtain ⟨knobs, offered, rfl⟩ := List.mem_map.mp point
      exact stages_of_scalarBound (Space.scalarBound_of_mem_scalarPoints offered) roomy

/-- Everything that is accepted fits exactly where the second operand is not wider than the
first, nothing is accepted at all, or local memory does not hold two elements.  The candidates
of every space fit where the second operand is not wider, and where local memory has at least
half the size that known chips have. -/
theorem stagedBytes_le_iff (problem : Problem) :
    ((∀ config, problem.Accepts config →
        problem.stagedBytes config ≤ problem.target.ldsBytes.toNat) ↔
      problem.validate ≠ .ok () ∨ problem.bType.bytes ≤ problem.aType.bytes ∨
        problem.target.ldsBytes.toNat < 2 * problem.aType.bytes) ∧
    (problem.bType.bytes ≤ problem.aType.bytes ∨ 32768 ≤ problem.target.ldsBytes.toNat →
      ∀ level space, Space.build problem level = .ok space →
        ∀ candidate, candidate ∈ space.candidates →
          problem.stagedBytes candidate.config ≤ problem.target.ldsBytes.toNat) :=
  ⟨forall_stages_iff, fun narrowOrRoomy _ _ built _ member =>
    stages_of_mem_candidates narrowOrRoomy built member⟩

/-- A product of bytes with floats on a chip with some local memory. -/
def mixedProduct (ldsBytes : UInt32) : Problem :=
  { gemm ⟨1, 512, 512, 512⟩ .i8 ⟨"gfx906", .gcn, 64, 60, ldsBytes⟩ with bType := .f32 }

/-- The curated list on a chip with all its local memory. -/
theorem stagedBytes_le_iff_knownChip :
    32768 ≤ (mixedProduct 65536).target.ldsBytes.toNat ∧
      ∃ space, Space.build (mixedProduct 65536) .quick = .ok space ∧
        ⟨.scalar ⟨256, 64, 64, 16, 4, 4⟩, true⟩ ∈ space.candidates ∧
        (mixedProduct 65536).stagedBytes (.scalar ⟨256, 64, 64, 16, 4, 4⟩) ≤ 65536 := by
  have member : (⟨.scalar ⟨256, 64, 64, 16, 4, 4⟩, true⟩ : Candidate) ∈
      ((Space.points (mixedProduct 65536) .quick).filter
        (Space.admits (mixedProduct 65536))).map (Space.candidate (mixedProduct 65536)) := by
    decide
  refine ⟨by decide, _, rfl, member, ?_⟩
  exact (stagedBytes_le_iff (mixedProduct 65536)).2 (.inr (by decide)) .quick _ rfl _ member

/-- An accepted configuration whose second tile alone is twice as large as local memory, and a
candidate that does not fit a chip with less of it. -/
theorem stagedBytes_exceeds_ldsBytes :
    ((mixedProduct 65536).Accepts (.scalar ⟨256, 64, 64, 512, 4, 4⟩) ∧
      65536 < (mixedProduct 65536).stagedBytes (.scalar ⟨256, 64, 64, 512, 4, 4⟩)) ∧
    ∃ space, Space.build (mixedProduct 8192) .exhaustive = .ok space ∧
      ⟨.scalar ⟨256, 128, 128, 32, 8, 8⟩, true⟩ ∈ space.candidates ∧
      8192 < (mixedProduct 8192).stagedBytes (.scalar ⟨256, 128, 128, 32, 8, 8⟩) := by
  refine ⟨by decide, _, rfl, ?_, by decide⟩
  refine List.mem_map.mpr ⟨.scalar ⟨256, 128, 128, 32, 8, 8⟩, List.mem_filter.mpr ⟨?_, ?_⟩, ?_⟩
  · refine List.mem_map.mpr ⟨_, Space.ScalarGrid.mem_points.mpr ?_, rfl⟩
    decide
  · decide
  · decide

end Problem

end KernelTuning
