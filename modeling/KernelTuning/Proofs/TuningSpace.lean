import KernelTuning.Proofs.ConfigChecks
import KernelTuning.Proofs.PaddedPower
import KernelTuning.Proofs.TuningGrid
import KernelTuning.Space.Basic

/-!
# The tuning space and the checks

A tuning space is enumerated with filters of its own, and a configuration is applied
after checks of its own.  Both come to the same: the usable places of a space hold
exactly the grid points that the checks accept, that can be fused and that are no
larger than the problem.
-/

namespace KernelTuning

open Checked

namespace SplitK

/-- The split factors that the advice on the shape alone leads to. -/
def advised (problem : Problem) (level : Level) : List UInt32 :=
  let shape := problem.shape
  if level = .quick ∨
      predict (clamp shape.g) (clamp shape.m) (clamp shape.n) (clamp shape.k)
        (Int64.ofNat problem.target.computeUnits.toNat) level = .never then [1]
  else offered

theorem factors_eq (problem : Problem) (level : Level) :
    factors problem level =
      if problem.target.supportsAtomicAdd problem.outType = true ∧
          problem.epilogueDistributes = true then advised problem level
      else [1] := by
  unfold factors advised
  cases problem.target.supportsAtomicAdd problem.outType with
  | false => simp
  | true =>
      cases problem.epilogueDistributes with
      | false => simp
      | true =>
          simp only [Bool.true_eq_false, if_false, and_self, if_true]
          by_cases quick : level = .quick
          · simp [predict, quick]
          · simp only [quick, false_or]
            split <;> simp_all

theorem toInt_clamp (dimension : UInt64) :
    (clamp dimension).toInt = min (dimension.toNat : Int) largest := by
  have below : min dimension.toNat largest < 2 ^ 63 := by
    have bound : largest < 2 ^ 63 := by decide
    omega
  unfold clamp
  rw [Int64.toInt_ofNat_of_lt below]
  omega

theorem mem_advised
    {problem : Problem} {level : Level} {splitK : UInt32}
    (member : splitK ∈ advised problem level) :
    splitK = 1 ∨ splitK ∈ offered ∧ 1024 ≤ problem.shape.k.toNat := by
  unfold advised at member
  simp only at member
  split at member
  · exact .inl (List.mem_singleton.mp member)
  · rename_i advice
    refine .inr ⟨member, ?_⟩
    obtain ⟨slow, possible⟩ := not_or.mp advice
    have short : ¬(clamp problem.shape.k).toInt < shortestReduction := by
      intro short
      refine possible ?_
      unfold predict ofShape
      simp [slow, short]
    rw [toInt_clamp] at short
    have threshold : shortestReduction = 1024 := rfl
    omega

private theorem bounded_offered : Space.Bounded offered := by
  decide

private theorem bounded_factors (problem : Problem) (level : Level) :
    Space.Bounded (factors problem level) := by
  rw [factors_eq]
  split
  · intro splitK member
    rcases mem_advised member with rfl | ⟨offeredMember, _⟩
    · decide
    · exact bounded_offered splitK offeredMember
  · decide

/-- The enumerated factors are picked out of the advised ones; no splitting at all
is always among both. -/
theorem filter_advised (problem : Problem) (level : Level) :
    (advised problem level).filter
        (fun splitK => splitK == 1 || (factors problem level).contains splitK) =
      factors problem level := by
  rw [factors_eq]
  split
  · refine List.filter_eq_self.mpr ?_
    intro splitK member
    simp [member]
  · unfold advised
    simp only
    split <;> decide

end SplitK

namespace Space

/-! ## No point is near an arithmetic limit -/

theorem modest_of_mem_points
    {problem : Problem} {level : Level} {config : Config}
    (member : config ∈ points problem level) : Modest config := by
  unfold points at member
  split at member
  · obtain ⟨knobs, knobsMember, rfl⟩ := List.mem_map.mp member
    exact modest_of_mem_matrixPoints (SplitK.bounded_factors problem level) knobsMember
  · obtain ⟨knobs, knobsMember, rfl⟩ := List.mem_map.mp member
    exact modest_of_mem_scalarPoints knobsMember

namespace Modest

theorem positive {config : Config} (modest : Modest config) : config.Positive :=
  fun quantity member => (modest quantity member).1

end Modest

/-- The points of the level's grid with the split factors that are advised. -/
def gridPoints (problem : Problem) (level : Level) : List Config :=
  if problem.usesMatrix then
    (matrixPoints level (SplitK.advised problem level)).map .matrix
  else (scalarPoints level).map .scalar

/-- What makes a grid point usable: the checks accept it, it can be combined with the
fused operations, and it is no larger than the problem. -/
structure Suits (problem : Problem) (config : Config) : Prop where
  accepted : problem.Accepts config
  fusible : problem.canFuse config = true
  rows : config.mPerBlock.toNat ≤ max 32 (Word.nextPower problem.shape.m)
  columns : config.nPerBlock.toNat ≤ max 32 (Word.nextPower problem.shape.n)
  depth :
    config.kPerBlock.toNat * config.kPack.toNat * config.splitK.toNat
      ≤ Word.nextPower problem.shape.k

theorem fitsShape_iff {shape : Shape} {config : Config} :
    fitsShape shape config = true ↔
      config.mPerBlock.toNat ≤ max 32 (Word.nextPower shape.m) ∧
        config.nPerBlock.toNat ≤ max 32 (Word.nextPower shape.n) ∧
        config.kPerBlock.toNat * config.kPack.toNat * config.splitK.toNat
          ≤ Word.nextPower shape.k := by
  unfold fitsShape paddedExtent leastExtent Config.kElements
  simp only [Bool.and_eq_true, decide_eq_true_eq, Word.paddedPower_eq, max_comm 32,
    and_assoc]

theorem suits_iff {problem : Problem} {config : Config} :
    Suits problem config ↔
      problem.Accepts config ∧ problem.canFuse config = true ∧
        fitsShape problem.shape config = true := by
  rw [fitsShape_iff]
  constructor
  · intro suits
    exact ⟨suits.accepted, suits.fusible, suits.rows, suits.columns, suits.depth⟩
  · rintro ⟨accepted, fusible, rows, columns, depth⟩
    exact ⟨accepted, fusible, rows, columns, depth⟩

instance (problem : Problem) (config : Config) : Decidable (Suits problem config) :=
  decidable_of_iff _ suits_iff.symm

theorem admits_iff {problem : Problem} {config : Config} :
    admits problem config = true ↔
      Passes (config.checkStructure problem.target problem.aType.bytes) () ∧
        fitsShape problem.shape config = true := by
  unfold admits
  rw [Bool.and_eq_true, Config.isLaunchable_iff]

/-- Whether the enumeration keeps a configuration and reports it as usable. -/
def usable (problem : Problem) (config : Config) : Bool :=
  admits problem config && (candidate problem config).coherent

theorem coherent_candidate {problem : Problem} {config : Config} :
    (candidate problem config).coherent = true ↔
      problem.isCoherent config = .ok true := by
  unfold candidate
  generalize problem.isCoherent config = outcome
  cases outcome <;> simp

theorem usable_iff {problem : Problem} {config : Config} :
    usable problem config = true ↔
      config.isLaunchable problem.target problem.aType.bytes = true ∧
        fitsShape problem.shape config = true ∧
        problem.isCoherent config = .ok true := by
  unfold usable admits
  simp only [Bool.and_eq_true, coherent_candidate, and_assoc]

/-- A split factor is enumerated exactly if the checks and the fused operations allow
it: the advice already asks for more K elements than there are parts. -/
private theorem split_allowed_iff
    {problem : Problem} {level : Level} {splitK : UInt32}
    (member : splitK = 1 ∨ splitK ∈ SplitK.advised problem level) :
    problem.SplitsSoundly splitK ∧
        (splitK == 1 || problem.epilogueDistributes) = true ↔
      splitK = 1 ∨ splitK ∈ SplitK.factors problem level := by
  by_cases unsplit : splitK = 1
  · subst unsplit
    simp [Problem.SplitsSoundly]
  · have advisedMember := member.resolve_left unsplit
    obtain ⟨offeredMember, long⟩ :=
      (SplitK.mem_advised advisedMember).resolve_left unsplit
    have few : 1 < splitK ∧ splitK.toNat ≤ 8 := by
      clear member advisedMember
      simp only [SplitK.offered, List.mem_cons, List.not_mem_nil, or_false] at offeredMember
      rcases offeredMember with rfl | rfl | rfl | rfl
      · exact absurd rfl unsplit
      all_goals decide
    have fine : splitK.toNat ≤ problem.shape.k.toNat := by omega
    rw [SplitK.factors_eq]
    unfold Problem.SplitsSoundly
    cases problem.target.supportsAtomicAdd problem.outType with
    | false => simp [unsplit, few.1]
    | true =>
        cases problem.epilogueDistributes with
        | false => simp [unsplit]
        | true => simp [advisedMember, fine]

private theorem suits_matrix_iff
    {problem : Problem} {level : Level} {knobs : MatrixKnobs}
    (validated : problem.validate = .ok ()) (matrix : problem.usesMatrix = true)
    (member : knobs ∈ matrixPoints level (SplitK.advised problem level)) :
    Suits problem (.matrix knobs) ↔
      usable problem (.matrix knobs) = true ∧
        (knobs.splitK = 1 ∨ knobs.splitK ∈ SplitK.factors problem level) := by
  rw [suits_iff, usable_iff, Problem.accepts_matrix_iff,
    ← split_allowed_iff (splitK_of_mem_matrixPoints member)]
  unfold Problem.canFuse Config.splitK
  constructor
  · rintro ⟨⟨_, _, launchable, coherent, soundly⟩, fusible, fits⟩
    exact ⟨⟨launchable, fits, coherent⟩, soundly, fusible⟩
  · rintro ⟨⟨launchable, fits, coherent⟩, soundly, fusible⟩
    exact ⟨⟨validated, matrix, launchable, coherent, soundly⟩, fusible, fits⟩

private theorem suits_scalar_iff
    {problem : Problem} {level : Level} {knobs : ScalarKnobs}
    (validated : problem.validate = .ok ()) (scalar : problem.usesMatrix = false)
    (member : knobs ∈ scalarPoints level) :
    Suits problem (.scalar knobs) ↔ usable problem (.scalar knobs) = true := by
  have positive := (modest_of_mem_scalarPoints member).positive
  simp only [Config.Positive, Config.quantities, List.forall_mem_cons] at positive
  have nonempty : 1 ≤ knobs.kPerBlock := positive.2.2.2.1
  rw [suits_iff, usable_iff, Problem.accepts_scalar_iff]
  simp [validated, scalar, Problem.canFuse, Config.splitK, Problem.isCoherent, nonempty]

/-- The enumeration keeps the same points as the checks, in the same order. -/
theorem filter_usable_points
    {problem : Problem} (level : Level) (validated : problem.validate = .ok ()) :
    (points problem level).filter (usable problem) =
      (gridPoints problem level).filter (fun config => decide (Suits problem config)) := by
  unfold points gridPoints
  cases matrix : problem.usesMatrix with
  | false =>
      simp only [Bool.false_eq_true, if_false]
      refine List.filter_congr ?_
      intro config member
      obtain ⟨knobs, knobsMember, rfl⟩ := List.mem_map.mp member
      rw [Bool.eq_iff_iff, decide_eq_true_iff]
      exact (suits_scalar_iff validated matrix knobsMember).symm
  | true =>
      simp only [if_true]
      -- Fewer split factors mean fewer points, so the enumeration is a filter of the
      -- advised grid and the two filters can be compared point by point.
      let enumerated : UInt32 → Bool := fun splitK =>
        splitK == 1 || (SplitK.factors problem level).contains splitK
      have selection :
          matrixPoints level (SplitK.factors problem level) =
            (matrixPoints level (SplitK.advised problem level)).filter
              (fun knobs => enumerated knobs.splitK) := by
        rw [filter_matrixPoints level _ rfl, SplitK.filter_advised]
      rw [selection, List.filter_map, List.filter_map, List.filter_filter]
      refine congrArg _ (List.filter_congr ?_)
      intro knobs member
      rw [Bool.eq_iff_iff]
      simp only [Function.comp_apply, decide_eq_true_iff,
        suits_matrix_iff validated matrix member]
      simp [enumerated]

theorem build_eq_ok_iff {problem : Problem} {level : Level} {space : Space} :
    build problem level = .ok space ↔
      problem.validate = .ok () ∧
        space = ⟨level, problem,
          ((points problem level).filter (admits problem)).map (candidate problem)⟩ := by
  unfold build
  cases problem.validate with
  | error fault => simp
  | ok accepted => simp [eq_comm]

theorem mem_candidates_iff
    {problem : Problem} {level : Level} {space : Space} {entry : Candidate}
    (built : build problem level = .ok space) :
    entry ∈ space.candidates ↔
      ∃ config, config ∈ points problem level ∧ admits problem config = true ∧
        candidate problem config = entry := by
  obtain ⟨_, rfl⟩ := build_eq_ok_iff.mp built
  simp only [List.mem_map, List.mem_filter, and_assoc]

theorem valid_eq_filter
    {problem : Problem} {level : Level} {space : Space}
    (built : build problem level = .ok space) :
    space.valid = (points problem level).filter (usable problem) := by
  obtain ⟨_, rfl⟩ := build_eq_ok_iff.mp built
  have configs : Candidate.config ∘ candidate problem = id := rfl
  have usableSplit :
      (fun config => (Candidate.coherent ∘ candidate problem) config
        && admits problem config) = usable problem := by
    funext config
    exact Bool.and_comm _ _
  unfold valid
  simp only [List.filter_map, List.map_map, configs, List.map_id, List.filter_filter,
    usableSplit]

theorem mem_valid_of_get?
    {space : Space} {index : Nat} {config : Config}
    (found : space.get? index = some config) : config ∈ space.valid := by
  unfold get? at found
  split at found
  · rename_i candidate atIndex
    split at found
    · rename_i coherent
      cases found
      refine List.mem_map.mpr ⟨candidate, ?_, rfl⟩
      exact List.mem_filter.mpr ⟨List.mem_of_getElem? atIndex, coherent⟩
    · cases found
  · cases found

theorem suits_of_mem_valid
    {problem : Problem} {level : Level} {space : Space} {config : Config}
    (built : build problem level = .ok space) (member : config ∈ space.valid) :
    Suits problem config := by
  have validated := (build_eq_ok_iff.mp built).1
  rw [valid_eq_filter built, filter_usable_points level validated] at member
  exact of_decide_eq_true (List.mem_filter.mp member).2

theorem modest_of_mem_valid
    {problem : Problem} {level : Level} {space : Space} {config : Config}
    (built : build problem level = .ok space) (member : config ∈ space.valid) :
    Modest config := by
  rw [valid_eq_filter built] at member
  exact modest_of_mem_points (List.mem_filter.mp member).1

/-- A product of small matrices on a chip with matrix instructions. -/
def smallProduct : Problem :=
  .gemm ⟨1, 64, 64, 64⟩ .f32 ⟨"gfx90a", .cdna2, 64, 104, 65536⟩

end Space

end KernelTuning
