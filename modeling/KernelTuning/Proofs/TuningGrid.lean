import KernelTuning.Proofs.ConfigText
import KernelTuning.Space.Grid
import Mathlib.Data.List.Nodup

/-!
# Points of the grids

A point of a grid is a choice of one value for each knob, every choice occurs once,
and leaving out split factors leaves out exactly the points that use them.
-/

namespace KernelTuning.Space

variable {α β : Type}

/-- Branches that can be told apart by a key have no result in common. -/
private theorem nodup_flatMap_of_key
    {items : List α} {branch : α → List β} (key : β → α)
    (distinct : items.Nodup)
    (branchDistinct : ∀ item, item ∈ items → (branch item).Nodup)
    (keyed : ∀ item result, result ∈ branch item → key result = item) :
    (items.flatMap branch).Nodup := by
  refine List.nodup_flatMap.mpr ⟨branchDistinct, distinct.imp ?_⟩
  intro first second different result inFirst inSecond
  exact different ((keyed first result inFirst).symm.trans (keyed second result inSecond))

/-- A test of the key selects whole branches. -/
private theorem filter_flatMap_of_key
    (items : List α) {branch : α → List β} {test : β → Bool} {keep : α → Bool}
    (keyed : ∀ item result, result ∈ branch item → test result = keep item) :
    (items.flatMap branch).filter test = (items.filter keep).flatMap branch := by
  induction items with
  | nil => rfl
  | cons item items induction =>
      rw [List.flatMap_cons, List.filter_append, induction]
      cases kept : keep item with
      | false =>
          have dropped : (branch item).filter test = [] := by
            refine List.filter_eq_nil_iff.mpr ?_
            intro result member
            simp [keyed item result member, kept]
          simp [dropped, kept]
      | true =>
          have whole : (branch item).filter test = branch item := by
            refine List.filter_eq_self.mpr ?_
            intro result member
            rw [keyed item result member, kept]
          simp [whole, kept]

namespace MatrixGrid

theorem mem_points
    {grid : MatrixGrid} {splitFactors : List UInt32} {knobs : MatrixKnobs} :
    knobs ∈ grid.points splitFactors ↔
      knobs.mPerBlock ∈ grid.block ∧ knobs.nPerBlock ∈ grid.block ∧
        knobs.kPerBlock ∈ grid.kPerBlock ∧ knobs.mPerWave ∈ grid.wave ∧
        knobs.nPerWave ∈ grid.wave ∧ knobs.kPack ∈ grid.kPack ∧
        knobs.splitK ∈ splitFactors ∧ knobs.forceUnroll ∈ grid.forceUnroll ∧
        knobs.bCopyMore ∈ grid.bCopyMore := by
  unfold points
  simp only [List.mem_flatMap, List.mem_map]
  constructor
  · rintro ⟨_, mPerBlock, _, nPerBlock, _, kPerBlock, _, mPerWave, _, nPerWave,
      _, kPack, _, splitK, _, forceUnroll, _, bCopyMore, rfl⟩
    exact ⟨mPerBlock, nPerBlock, kPerBlock, mPerWave, nPerWave, kPack, splitK,
      forceUnroll, bCopyMore⟩
  · rintro ⟨mPerBlock, nPerBlock, kPerBlock, mPerWave, nPerWave, kPack, splitK,
      forceUnroll, bCopyMore⟩
    exact ⟨_, mPerBlock, _, nPerBlock, _, kPerBlock, _, mPerWave, _, nPerWave,
      _, kPack, _, splitK, _, forceUnroll, _, bCopyMore, rfl⟩

/-- No knob has a value twice. -/
structure Distinct (grid : MatrixGrid) : Prop where
  block : grid.block.Nodup
  kPerBlock : grid.kPerBlock.Nodup
  wave : grid.wave.Nodup
  kPack : grid.kPack.Nodup
  forceUnroll : grid.forceUnroll.Nodup
  bCopyMore : grid.bCopyMore.Nodup

private theorem distinct_full : full.Distinct := by
  constructor <;> decide

private theorem distinct_exhaustive : exhaustive.Distinct := by
  constructor <;> decide

theorem nodup_points
    {grid : MatrixGrid} {splitFactors : List UInt32}
    (distinct : grid.Distinct) (splitDistinct : splitFactors.Nodup) :
    (grid.points splitFactors).Nodup := by
  unfold points
  refine nodup_flatMap_of_key MatrixKnobs.mPerBlock distinct.block ?_ (by grind)
  intro mPerBlock _
  refine nodup_flatMap_of_key MatrixKnobs.nPerBlock distinct.block ?_ (by grind)
  intro nPerBlock _
  refine nodup_flatMap_of_key MatrixKnobs.kPerBlock distinct.kPerBlock ?_ (by grind)
  intro kPerBlock _
  refine nodup_flatMap_of_key MatrixKnobs.mPerWave distinct.wave ?_ (by grind)
  intro mPerWave _
  refine nodup_flatMap_of_key MatrixKnobs.nPerWave distinct.wave ?_ (by grind)
  intro nPerWave _
  refine nodup_flatMap_of_key MatrixKnobs.kPack distinct.kPack ?_ (by grind)
  intro kPack _
  refine nodup_flatMap_of_key MatrixKnobs.splitK splitDistinct ?_ (by grind)
  intro splitK _
  refine nodup_flatMap_of_key MatrixKnobs.forceUnroll distinct.forceUnroll ?_
    (by grind)
  intro forceUnroll _
  refine distinct.bCopyMore.map ?_
  intro first second same
  exact congrArg MatrixKnobs.bCopyMore same

/-- Leaving out split factors leaves out the points that use them. -/
theorem filter_points
    (grid : MatrixGrid) (splitFactors : List UInt32) (keep : UInt32 → Bool) :
    (grid.points splitFactors).filter (fun knobs => keep knobs.splitK) =
      grid.points (splitFactors.filter keep) := by
  unfold points
  iterate 6
    rw [List.filter_flatMap]
    refine congrArg (List.flatMap · _) (funext fun _ => ?_)
  refine filter_flatMap_of_key splitFactors ?_
  intro splitK knobs member
  simp only [List.mem_flatMap, List.mem_map] at member
  obtain ⟨_, _, _, _, rfl⟩ := member
  rfl

end MatrixGrid

namespace ScalarGrid

theorem mem_points {grid : ScalarGrid} {knobs : ScalarKnobs} :
    knobs ∈ grid.points ↔
      knobs.blockSize ∈ grid.blockSize ∧ knobs.mPerBlock ∈ grid.block ∧
        knobs.nPerBlock ∈ grid.block ∧ knobs.kPerBlock ∈ grid.kPerBlock ∧
        knobs.mPerThread ∈ grid.thread ∧ knobs.nPerThread ∈ grid.thread := by
  unfold points
  simp only [List.mem_flatMap, List.mem_map]
  constructor
  · rintro ⟨_, blockSize, _, mPerBlock, _, nPerBlock, _, kPerBlock,
      _, mPerThread, _, nPerThread, rfl⟩
    exact ⟨blockSize, mPerBlock, nPerBlock, kPerBlock, mPerThread, nPerThread⟩
  · rintro ⟨blockSize, mPerBlock, nPerBlock, kPerBlock, mPerThread, nPerThread⟩
    exact ⟨_, blockSize, _, mPerBlock, _, nPerBlock, _, kPerBlock,
      _, mPerThread, _, nPerThread, rfl⟩

/-- No knob has a value twice. -/
structure Distinct (grid : ScalarGrid) : Prop where
  blockSize : grid.blockSize.Nodup
  block : grid.block.Nodup
  kPerBlock : grid.kPerBlock.Nodup
  thread : grid.thread.Nodup

private theorem distinct_full : full.Distinct := by
  constructor <;> decide

private theorem distinct_exhaustive : exhaustive.Distinct := by
  constructor <;> decide

theorem nodup_points {grid : ScalarGrid} (distinct : grid.Distinct) :
    grid.points.Nodup := by
  unfold points
  refine nodup_flatMap_of_key ScalarKnobs.blockSize distinct.blockSize ?_ (by grind)
  intro blockSize _
  refine nodup_flatMap_of_key ScalarKnobs.mPerBlock distinct.block ?_ (by grind)
  intro mPerBlock _
  refine nodup_flatMap_of_key ScalarKnobs.nPerBlock distinct.block ?_ (by grind)
  intro nPerBlock _
  refine nodup_flatMap_of_key ScalarKnobs.kPerBlock distinct.kPerBlock ?_ (by grind)
  intro kPerBlock _
  refine nodup_flatMap_of_key ScalarKnobs.mPerThread distinct.thread ?_ (by grind)
  intro mPerThread _
  refine distinct.thread.map ?_
  intro first second same
  exact congrArg ScalarKnobs.nPerThread same

end ScalarGrid

/-! ## Levels -/

theorem nodup_scalarPoints (level : Level) : (scalarPoints level).Nodup := by
  cases level with
  | quick => decide
  | full => exact ScalarGrid.nodup_points ScalarGrid.distinct_full
  | exhaustive => exact ScalarGrid.nodup_points ScalarGrid.distinct_exhaustive

theorem splitK_of_mem_quickMatrix :
    ∀ knobs, knobs ∈ quickMatrix → knobs.splitK = 1 := by
  decide

theorem splitK_of_mem_matrixPoints
    {level : Level} {splitFactors : List UInt32} {knobs : MatrixKnobs}
    (member : knobs ∈ matrixPoints level splitFactors) :
    knobs.splitK = 1 ∨ knobs.splitK ∈ splitFactors := by
  cases level with
  | quick => exact .inl (splitK_of_mem_quickMatrix knobs member)
  | full => exact .inr (MatrixGrid.mem_points.mp member).2.2.2.2.2.2.1
  | exhaustive => exact .inr (MatrixGrid.mem_points.mp member).2.2.2.2.2.2.1

theorem filter_matrixPoints
    (level : Level) (splitFactors : List UInt32) {keep : UInt32 → Bool}
    (unsplit : keep 1 = true) :
    (matrixPoints level splitFactors).filter (fun knobs => keep knobs.splitK) =
      matrixPoints level (splitFactors.filter keep) := by
  cases level with
  | quick =>
      refine List.filter_eq_self.mpr ?_
      intro knobs member
      rw [splitK_of_mem_quickMatrix knobs member, unsplit]
  | full => exact MatrixGrid.full.filter_points splitFactors keep
  | exhaustive => exact MatrixGrid.exhaustive.filter_points splitFactors keep

/-! ## Bounds -/

/-- Every quantity is positive and at most 256. -/
def Modest (config : Config) : Prop :=
  ∀ quantity, quantity ∈ config.quantities → 0 < quantity ∧ quantity ≤ 256

instance (config : Config) : Decidable (Modest config) :=
  List.decidableBAll _ _

/-- Every value of a knob is positive and at most 256. -/
def Bounded (values : List UInt32) : Prop :=
  ∀ value, value ∈ values → 0 < value.toNat ∧ value.toNat ≤ 256

instance (values : List UInt32) : Decidable (Bounded values) :=
  List.decidableBAll _ _

theorem MatrixGrid.modest_of_mem_points
    {grid : MatrixGrid} {splitFactors : List UInt32} {knobs : MatrixKnobs}
    (block : Bounded grid.block) (kPerBlock : Bounded grid.kPerBlock)
    (wave : Bounded grid.wave) (kPack : Bounded grid.kPack)
    (split : Bounded splitFactors) (member : knobs ∈ grid.points splitFactors) :
    Modest (.matrix knobs) := by
  obtain ⟨mPerBlock, nPerBlock, kTile, mPerWave, nPerWave, pack, splitK, _⟩ :=
    MatrixGrid.mem_points.mp member
  simp only [Modest, Config.quantities, List.forall_mem_cons]
  exact ⟨block _ mPerBlock, block _ nPerBlock, kPerBlock _ kTile, wave _ mPerWave,
    wave _ nPerWave, kPack _ pack, split _ splitK, by simp⟩

theorem ScalarGrid.modest_of_mem_points
    {grid : ScalarGrid} {knobs : ScalarKnobs}
    (blockSize : Bounded grid.blockSize) (block : Bounded grid.block)
    (kPerBlock : Bounded grid.kPerBlock) (thread : Bounded grid.thread)
    (member : knobs ∈ grid.points) :
    Modest (.scalar knobs) := by
  obtain ⟨size, mPerBlock, nPerBlock, kTile, mPerThread, nPerThread⟩ :=
    ScalarGrid.mem_points.mp member
  simp only [Modest, Config.quantities, List.forall_mem_cons]
  exact ⟨blockSize _ size, block _ mPerBlock, block _ nPerBlock, kPerBlock _ kTile,
    thread _ mPerThread, thread _ nPerThread, by simp⟩

theorem modest_of_mem_matrixPoints
    {level : Level} {splitFactors : List UInt32} {knobs : MatrixKnobs}
    (split : Bounded splitFactors) (member : knobs ∈ matrixPoints level splitFactors) :
    Modest (.matrix knobs) := by
  cases level with
  | quick =>
      revert knobs
      change ∀ knobs, knobs ∈ quickMatrix → _
      decide
  | full =>
      exact MatrixGrid.modest_of_mem_points (by decide) (by decide) (by decide)
        (by decide) split member
  | exhaustive =>
      exact MatrixGrid.modest_of_mem_points (by decide) (by decide) (by decide)
        (by decide) split member

theorem modest_of_mem_scalarPoints
    {level : Level} {knobs : ScalarKnobs} (member : knobs ∈ scalarPoints level) :
    Modest (.scalar knobs) := by
  cases level with
  | quick =>
      revert knobs
      change ∀ knobs, knobs ∈ quickScalar → _
      decide
  | full =>
      exact ScalarGrid.modest_of_mem_points (by decide) (by decide) (by decide)
        (by decide) member
  | exhaustive =>
      exact ScalarGrid.modest_of_mem_points (by decide) (by decide) (by decide)
        (by decide) member

end KernelTuning.Space
