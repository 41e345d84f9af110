import KernelTuning.Instruction.Basic

/-!
# The choice of instructions

An instruction is found exactly where the target supports the type, its waves have the lanes
that its instructions need, and the wave tile consists of tiles of 16 by 16.  The tile does not
change how many K elements an invocation consumes: that number follows from the generation and
the type.
-/

namespace KernelTuning

/-- A wave tile that consists of tiles of 16 by 16. -/
def EvenTile (m n : UInt32) : Prop := m % 16 = 0 ∧ n % 16 = 0

variable {target : Target} {a b : ElementType} {waveSize m n : UInt32}

/-! ## Wave matrix instructions -/

namespace WmmaInstruction

theorem isSome_select?_iff :
    (select? a b waveSize m n).isSome = true ↔
      a = b ∧ waveSize = 32 ∧ EvenTile m n ∧ (nameFor? a).isSome = true := by
  unfold select?
  split
  · rename_i wrong
    exact iff_of_false nofun fun ⟨same, wave, _⟩ => wrong.elim (· same) (· wave)
  · rename_i operands
    obtain ⟨same, wave⟩ : a = b ∧ waveSize = 32 := by simpa using operands
    split
    · rename_i uneven
      exact iff_of_false nofun fun ⟨_, _, even, _⟩ => uneven.elim (· even.1) (· even.2)
    · rename_i divided
      have even : m % side = 0 ∧ n % side = 0 := by simpa using divided
      rw [and_iff_right same, and_iff_right wave, and_iff_right (show EvenTile m n from even)]
      cases nameFor? a <;> exact Iff.rfl

theorem inputLength_of_select? {instruction : WmmaInstruction}
    (selected : select? a b waveSize m n = some instruction) : instruction.inputLength = 16 := by
  unfold select? at selected
  split at selected
  · cases selected
  · split at selected
    · cases selected
    · obtain ⟨name, _, rest⟩ := Option.bind_eq_some_iff.mp selected
      cases rest
      rfl

end WmmaInstruction

/-! ## Fused multiply-add instructions -/

namespace MfmaInstruction

/-- A multiple of the larger side is one of the smaller side. -/
private theorem isSome_sideFor?_iff : (sideFor? m n).isSome = true ↔ EvenTile m n := by
  have narrower : ∀ {extent : UInt32}, extent % 32 = 0 → extent % 16 = 0 := by
    intro extent divides
    rw [← UInt32.toNat_inj, UInt32.toNat_mod] at divides ⊢
    change extent.toNat % 32 = 0 at divides
    change extent.toNat % 16 = 0
    omega
  have sides : (sideFor? m n).isSome = true ↔ (m % 32 = 0 ∧ n % 32 = 0) ∨ EvenTile m n := by
    unfold sideFor? EvenTile
    rw [List.find?_isSome]
    simp
  rw [sides, or_iff_right_iff_imp]
  exact fun wide => ⟨narrower wide.1, narrower wide.2⟩

private theorem isSome_variant?_iff {generation : Generation} {side : UInt32} :
    (variant? generation a side).isSome = true ↔ a ≠ .i32 := by
  cases a with
  | f32 | f16 | bf16 => exact iff_of_true rfl nofun
  | i8 => cases generation <;> exact iff_of_true rfl nofun
  | i32 => exact iff_of_false nofun fun different => different rfl

theorem isSome_select?_iff :
    (select? target a b m n).isSome = true ↔
      a = b ∧ target.waveSize = 64 ∧ target.hasMfma = true ∧ EvenTile m n ∧ a ≠ .i32 := by
  unfold select?
  split
  · rename_i wrong
    refine iff_of_false nofun fun ⟨same, wave, mfma, _⟩ => ?_
    rcases wrong with different | narrow | missing
    · exact different same
    · exact narrow wave
    · exact Bool.false_ne_true (missing.symm.trans mfma)
  · rename_i operands
    obtain ⟨same, wave, mfma⟩ : a = b ∧ target.waveSize = 64 ∧ target.hasMfma = true := by
      simpa using operands
    rw [and_iff_right same, and_iff_right wave, and_iff_right mfma, ← isSome_sideFor?_iff]
    cases sideFor? m n with
    | none => exact iff_of_false nofun fun both => Bool.false_ne_true both.1
    | some side =>
        rw [and_iff_right Option.isSome_some, ← @isSome_variant?_iff a target.generation side]
        simp only [Option.bind_eq_bind, Option.bind_some, Option.isSome_bind]
        cases variant? target.generation a side <;> rfl

end MfmaInstruction

/-! ## The instructions of a target -/

namespace Instruction

/-- K elements that an invocation consumes on a generation, for operands of a type. -/
def lengthFor (generation : Generation) (type : ElementType) : UInt32 :=
  if generation = .rdna3 then WmmaInstruction.side
  else
    match type with
    | .f32 => 1
    | .f16 | .bf16 | .i32 => 4
    | .i8 => if generation = .cdna3 then 8 else 4

private theorem kBase_eq_lengthFor {generation : Generation} {side kBase : UInt32} {name : String}
    (older : generation ≠ .rdna3)
    (variant : MfmaInstruction.variant? generation a side = some (name, kBase)) :
    kBase = lengthFor generation a := by
  unfold lengthFor
  rw [if_neg older]
  cases a with
  | f32 | f16 | bf16 =>
      cases variant
      rfl
  | i8 =>
      cases generation with
      | rdna3 => exact absurd rfl older
      | gcn | cdna1 | cdna2 | cdna3 | rdna2 =>
          cases variant
          rfl
  | i32 => cases variant

theorem hasWmma_iff : target.hasWmma = true ↔ target.generation = .rdna3 :=
  beq_iff_eq

/-- The wave tile does not matter. -/
theorem inputLength_of_select? {instruction : Instruction}
    (selected : select? target a b m n = some instruction) :
    instruction.inputLength = lengthFor target.generation a := by
  unfold select? at selected
  split at selected
  · rename_i wmma
    obtain ⟨instruction, found, rfl⟩ := Option.map_eq_some_iff.mp selected
    unfold lengthFor
    rw [if_pos (hasWmma_iff.mp wmma)]
    exact WmmaInstruction.inputLength_of_select? found
  · rename_i noWmma
    split at selected
    · obtain ⟨instruction, found, rfl⟩ := Option.map_eq_some_iff.mp selected
      unfold MfmaInstruction.select? at found
      split at found
      · cases found
      · obtain ⟨side, _, sided⟩ := Option.bind_eq_some_iff.mp found
        obtain ⟨⟨name, kBase⟩, variant, built⟩ := Option.bind_eq_some_iff.mp sided
        cases built
        exact kBase_eq_lengthFor (noWmma ∘ hasWmma_iff.mpr) variant
    · cases selected

/-- Lanes of a wave that runs matrix instructions. -/
def lanes (target : Target) : UInt32 := if target.hasWmma then 32 else 64

theorem isSome_select?_iff :
    (select? target a b m n).isSome = true ↔
      a = b ∧ target.supportsMatrix a = true ∧ target.waveSize = lanes target ∧
        EvenTile m n := by
  unfold select? Target.supportsMatrix lanes
  cases target.hasWmma with
  | true =>
      have named : (WmmaInstruction.nameFor? a).isSome = true ↔
          (a == .f16 || a == .bf16 || a == .i8) = true := by
        cases a <;> decide
      simp only [if_true, Option.map_eq_map, Option.isSome_map,
        WmmaInstruction.isSome_select?_iff, named]
      exact and_congr_right fun _ => ⟨fun ⟨wave, even, known⟩ => ⟨known, wave, even⟩,
        fun ⟨known, wave, even⟩ => ⟨wave, even, known⟩⟩
  | false =>
      cases mfma : target.hasMfma with
      | true =>
          have named : a ≠ .i32 ↔ (a == .f32 || a == .f16 || a == .bf16 || a == .i8) = true := by
            cases a <;> decide
          simp only [Bool.false_eq_true, if_false, if_true, Option.map_eq_map, Option.isSome_map,
            MfmaInstruction.isSome_select?_iff, mfma, true_and, named]
          exact and_congr_right fun _ => ⟨fun ⟨wave, even, known⟩ => ⟨known, wave, even⟩,
            fun ⟨known, wave, even⟩ => ⟨wave, even, known⟩⟩
      | false => simp

end Instruction

end KernelTuning
