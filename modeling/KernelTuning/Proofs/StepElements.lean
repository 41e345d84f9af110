import KernelTuning.Proofs.StagedTiles

/-!
# The elements of a step

Whether a step of the main loop feeds an instruction is decided by the number of its K elements,
a product of two knobs that has to fit a word.  Nothing bounds the product where it is formed.
The structural checks come first: what passes them has a block tile, so local memory holds every
element of a step at least once.

Main statement: `Problem.kElements_exact`.
-/

namespace KernelTuning

open Checked

namespace Config

variable {target : Target} {elementBytes : Nat} {config : Config}

theorem kElements_lt_of_passes (bytes : 0 < elementBytes)
    (passes : Passes (config.checkStructure target elementBytes) ()) :
    config.kElements < UInt32.size :=
  (passes_checkStructure_iff_fits.mp passes).kElements_lt bytes

theorem toNat_kPerBlock_mul_kPack (small : config.kElements < UInt32.size) :
    (config.kPerBlock * config.kPack).toNat = config.kElements := by
  rw [UInt32.toNat_mul]
  exact Nat.mod_eq_of_lt small

end Config

namespace Problem

variable {problem : Problem} {config : Config} {knobs : MatrixKnobs} {instruction : Instruction}

/-- The checks get as far as the comparison of a step with what an instruction consumes. -/
structure Compares (problem : Problem) (knobs : MatrixKnobs) (instruction : Instruction) :
    Prop where
  validated : problem.validate = .ok ()
  matrix : problem.usesMatrix = true
  launchable :
    Passes ((Config.matrix knobs).checkStructure problem.target problem.aType.bytes) ()
  selected : problem.instruction? knobs = some instruction

/-- A step holds what its instruction consumes, in unbounded numbers. -/
def Feeds (problem : Problem) : Config → Prop
  | .matrix knobs =>
      ∃ instruction, problem.instruction? knobs = some instruction ∧
        instruction.inputLength.toNat ≤ knobs.kPerBlock.toNat * knobs.kPack.toNat
  | .scalar knobs => 1 ≤ knobs.kPerBlock.toNat

theorem Compares.kElements_lt (compares : problem.Compares knobs instruction) :
    (Config.matrix knobs).kElements < UInt32.size :=
  Config.kElements_lt_of_passes problem.aType.bytes_pos compares.launchable

theorem Compares.isFed_eq (compares : problem.Compares knobs instruction) :
    instruction.isFed knobs.kPack knobs.kPerBlock =
      .ok (decide (instruction.inputLength.toNat ≤
        knobs.kPerBlock.toNat * knobs.kPack.toNat)) :=
  instruction.isFed_eq_ok compares.kElements_lt

/-- Without the checks in front of it the count may stop. -/
example : instruction.isFed 65536 65536 = .error .multiplication := rfl

/-! ## Configurations that are refused -/

/-- What comes after the comparison finds other things wrong. -/
private theorem fails_validateMatrix_underfed_iff {refused : MatrixKnobs} :
    Fails (problem.validateMatrix knobs) (.underfed refused instruction) ↔
      knobs = refused ∧ problem.instruction? knobs = some instruction ∧
        instruction.isFed knobs.kPack knobs.kPerBlock = .ok false := by
  unfold validateMatrix
  cases problem.instruction? knobs with
  | none => simp
  | some selected =>
      simp only [fails_bind, not_fails_lift, false_or, passes_lift]
      constructor
      · rintro ⟨fed, fedRun, rest⟩
        cases fed with
        | false =>
            obtain ⟨rfl, rfl⟩ : knobs = refused ∧ selected = instruction := by simpa using rest
            exact ⟨rfl, rfl, fedRun⟩
        | true =>
            exfalso
            simp only [if_true] at rest
            split at rest
            · split at rest
              · split at rest
                · cases rest
                · cases rest
              · cases rest
            · cases rest
      · rintro ⟨rfl, found, fedRun⟩
        cases found
        exact ⟨false, fedRun, by simp⟩

theorem fails_validateConfig_underfed_iff :
    Fails (problem.validateConfig config) (.underfed knobs instruction) ↔
      config = .matrix knobs ∧ problem.Compares knobs instruction ∧
        knobs.kPerBlock.toNat * knobs.kPack.toNat < instruction.inputLength.toNat := by
  have reached : Fails (problem.validateConfig config) (.underfed knobs instruction) ↔
      problem.validate = .ok () ∧ config.isMatrix = problem.usesMatrix ∧
        Passes (config.checkStructure problem.target problem.aType.bytes) () ∧
        ∃ checked, config = .matrix checked ∧
          Fails (problem.validateMatrix checked) (.underfed knobs instruction) := by
    unfold validateConfig
    cases problem.validate with
    | error fault => simp
    | ok accepted =>
        simp only [fails_guard, fails_bind, fails_adapt, passes_adapt]
        cases config with
        | matrix checked => simp [Unique.exists_iff]
        | scalar checked => simp
  rw [reached]
  constructor
  · rintro ⟨validated, path, launchable, _, rfl, fails⟩
    obtain ⟨rfl, selected, underfed⟩ := fails_validateMatrix_underfed_iff.mp fails
    have compares : problem.Compares _ instruction :=
      ⟨validated, path.symm, launchable, selected⟩
    rw [compares.isFed_eq] at underfed
    exact ⟨rfl, compares, Nat.lt_of_not_le (of_decide_eq_false (Except.ok.inj underfed))⟩
  · rintro ⟨rfl, compares, underfed⟩
    refine ⟨compares.validated, compares.matrix.symm, compares.launchable, knobs, rfl, ?_⟩
    refine fails_validateMatrix_underfed_iff.mpr ⟨rfl, compares.selected, ?_⟩
    rw [compares.isFed_eq, decide_eq_false (Nat.not_le.mpr underfed)]

/-! ## Candidates -/

private theorem isCoherent_eq_of_lt (small : config.kElements < UInt32.size) :
    ∃ coherent, problem.isCoherent config = .ok coherent ∧
      (coherent = true ↔ problem.Feeds config) := by
  cases config with
  | scalar knobs =>
      refine ⟨_, rfl, ?_⟩
      rw [decide_eq_true_iff, UInt32.le_iff_toNat_le]
      rfl
  | matrix knobs =>
      simp only [isCoherent, Feeds]
      cases problem.instruction? knobs with
      | none => exact ⟨false, rfl, by simp⟩
      | some instruction => exact ⟨_, instruction.isFed_eq_ok small, by simp⟩

theorem coherent_of_mem_candidates {level : Level} {space : Space} {candidate : Candidate}
    (built : Space.build problem level = .ok space) (member : candidate ∈ space.candidates) :
    candidate.config.kElements < UInt32.size ∧
      problem.isCoherent candidate.config = .ok candidate.coherent ∧
      (candidate.coherent = true ↔ problem.Feeds candidate.config) := by
  obtain ⟨config, -, admitted, rfl⟩ := (Space.mem_candidates_iff built).mp member
  have small : config.kElements < UInt32.size :=
    Config.kElements_lt_of_passes problem.aType.bytes_pos (Space.admits_iff.mp admitted).1
  obtain ⟨coherent, decided, feeds⟩ := @isCoherent_eq_of_lt problem config small
  have flag : (Space.candidate problem config).coherent = coherent := by
    unfold Space.candidate
    rw [decided]
  rw [flag]
  exact ⟨small, decided, feeds⟩

/-- A configuration that passes the structural checks has a step whose K elements are counted in
a word, whether a larger product would stop the count or wrap around.  So the checks of a
problem stop at the thread count only, refuse a step exactly if it holds fewer elements than its
instruction consumes, and flag a candidate exactly by the same comparison. -/
theorem kElements_exact (problem : Problem) :
    (∀ config : Config, Passes (config.checkStructure problem.target problem.aType.bytes) () →
      config.kPerBlock.toNat * config.kPack.toNat < 2 ^ 32 ∧
        (config.kPerBlock * config.kPack).toNat =
          config.kPerBlock.toNat * config.kPack.toNat) ∧
    (∀ knobs instruction, problem.Compares knobs instruction →
      knobs.kPerBlock.toNat * knobs.kPack.toNat < 2 ^ 32 ∧
        instruction.isFed knobs.kPack knobs.kPerBlock =
          .ok (decide (instruction.inputLength.toNat ≤
            knobs.kPerBlock.toNat * knobs.kPack.toNat))) ∧
    (∀ config, Ends (problem.validateConfig config) ↔ ¬problem.Overflows config) ∧
    (∀ config knobs instruction,
      Fails (problem.validateConfig config) (.underfed knobs instruction) ↔
        config = .matrix knobs ∧ problem.Compares knobs instruction ∧
          knobs.kPerBlock.toNat * knobs.kPack.toNat < instruction.inputLength.toNat) ∧
    ∀ level space, Space.build problem level = .ok space →
      ∀ candidate, candidate ∈ space.candidates →
        candidate.config.kPerBlock.toNat * candidate.config.kPack.toNat < 2 ^ 32 ∧
          problem.isCoherent candidate.config = .ok candidate.coherent ∧
          (candidate.coherent = true ↔ problem.Feeds candidate.config) := by
  refine ⟨?_, fun _ _ compares => ⟨compares.kElements_lt, compares.isFed_eq⟩,
    fun _ => ends_validateConfig_iff, fun _ _ _ => fails_validateConfig_underfed_iff, ?_⟩
  · intro config passes
    have small := Config.kElements_lt_of_passes problem.aType.bytes_pos passes
    exact ⟨small, Config.toNat_kPerBlock_mul_kPack small⟩
  · intro level space built candidate member
    exact coherent_of_mem_candidates built member

/-- A product of halves on a chip with wave instructions, which consume sixteen elements. -/
def waveProduct : Problem :=
  gemm ⟨1, 128, 128, 4096⟩ .f16 ⟨"gfx1100", .rdna3, 32, 96, 65536⟩

/-- Two elements are counted but do not feed the instruction, those of a candidate do. -/
theorem kElements_exact_waveProduct :
    (Passes ((Config.matrix ⟨64, 64, 2, 32, 32, 1, 1, true, true⟩).checkStructure
        waveProduct.target waveProduct.aType.bytes) () ∧ 2 * 1 < 2 ^ 32) ∧
    (∃ instruction, waveProduct.Compares ⟨64, 64, 2, 32, 32, 1, 1, true, true⟩ instruction ∧
      instruction.isFed 1 2 = .ok false ∧
      Fails (waveProduct.validateConfig (.matrix ⟨64, 64, 2, 32, 32, 1, 1, true, true⟩))
        (.underfed ⟨64, 64, 2, 32, 32, 1, 1, true, true⟩ instruction)) ∧
    ∃ space, Space.build waveProduct .quick = .ok space ∧
      ⟨.matrix (Space.curatedMatrix 64 64 8 32 32 4), true⟩ ∈ space.candidates ∧
      waveProduct.Feeds (.matrix (Space.curatedMatrix 64 64 8 32 32 4)) := by
  obtain ⟨fit, decided, -, refused, flagged⟩ := kElements_exact waveProduct
  have launchable : Passes ((Config.matrix ⟨64, 64, 2, 32, 32, 1, 1, true, true⟩).checkStructure
      waveProduct.target waveProduct.aType.bytes) () := rfl
  have compares : waveProduct.Compares ⟨64, 64, 2, 32, 32, 1, 1, true, true⟩ _ :=
    ⟨rfl, rfl, launchable, rfl⟩
  have member : (⟨.matrix (Space.curatedMatrix 64 64 8 32 32 4), true⟩ : Candidate) ∈
      ((Space.points waveProduct .quick).filter (Space.admits waveProduct)).map
        (Space.candidate waveProduct) := by
    decide
  refine ⟨⟨launchable, (fit _ launchable).1⟩, ⟨_, compares, (decided _ _ compares).2, ?_⟩,
    _, rfl, member, (flagged .quick _ rfl _ member).2.2.mp rfl⟩
  exact (refused _ _ _).mpr ⟨rfl, compares, by decide⟩

end Problem

end KernelTuning
