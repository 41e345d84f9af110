import KernelTuning.Config.Basic
import KernelTuning.Level

/-!
# Grids of knob values

The values that each knob takes at each level.  The quick level has curated lists
instead of grids.  A grid is enumerated with its last knob running fastest.
-/

namespace KernelTuning.Space

/-- The knob values of kernels built on matrix instructions, split factors
excepted. -/
structure MatrixGrid where
  block : List UInt32
  kPerBlock : List UInt32
  wave : List UInt32
  kPack : List UInt32
  forceUnroll : List Bool
  bCopyMore : List Bool

namespace MatrixGrid

def full : MatrixGrid :=
  { block := [32, 64, 128, 256]
    kPerBlock := [2, 4, 8, 16]
    wave := [16, 32, 64]
    kPack := [1, 4, 8]
    forceUnroll := [true]
    bCopyMore := [true] }

def exhaustive : MatrixGrid :=
  { block := [16, 32, 64, 128, 256]
    kPerBlock := [1, 2, 4, 8, 16, 32]
    wave := [16, 32, 64, 128]
    kPack := [1, 2, 4, 8, 16]
    forceUnroll := [true, false]
    bCopyMore := [true, false] }

/-- The points of a grid with the given split factors. -/
def points (grid : MatrixGrid) (splitFactors : List UInt32) : List MatrixKnobs :=
  grid.block.flatMap fun mPerBlock =>
  grid.block.flatMap fun nPerBlock =>
  grid.kPerBlock.flatMap fun kPerBlock =>
  grid.wave.flatMap fun mPerWave =>
  grid.wave.flatMap fun nPerWave =>
  grid.kPack.flatMap fun kPack =>
  splitFactors.flatMap fun splitK =>
  grid.forceUnroll.flatMap fun forceUnroll =>
  grid.bCopyMore.map fun bCopyMore =>
    { mPerBlock, nPerBlock, kPerBlock, mPerWave, nPerWave, kPack, splitK,
      forceUnroll, bCopyMore }

end MatrixGrid

/-- An unsplit setting of the matrix knobs with both low-level knobs on. -/
def curatedMatrix
    (mPerBlock nPerBlock kPerBlock mPerWave nPerWave kPack : UInt32) : MatrixKnobs :=
  { mPerBlock, nPerBlock, kPerBlock, mPerWave, nPerWave, kPack
    splitK := 1
    forceUnroll := true
    bCopyMore := true }

/-- The curated list for kernels built on matrix instructions. -/
def quickMatrix : List MatrixKnobs :=
  [curatedMatrix 256 128 2 128 64 8,
    curatedMatrix 128 128 4 64 64 8,
    curatedMatrix 128 128 8 64 64 4,
    curatedMatrix 128 64 4 64 32 8,
    curatedMatrix 64 128 4 32 64 8,
    curatedMatrix 64 64 8 32 32 4,
    curatedMatrix 64 64 4 32 32 8,
    curatedMatrix 64 32 8 32 16 4,
    curatedMatrix 32 64 8 16 32 4,
    curatedMatrix 32 32 8 16 16 4,
    curatedMatrix 32 32 16 16 16 1]

/-- The knob values of scalar kernels. -/
structure ScalarGrid where
  blockSize : List UInt32
  block : List UInt32
  kPerBlock : List UInt32
  thread : List UInt32

namespace ScalarGrid

def full : ScalarGrid :=
  { blockSize := [64, 128, 256]
    block := [32, 64, 128]
    kPerBlock := [4, 8, 16]
    thread := [2, 4] }

def exhaustive : ScalarGrid :=
  { blockSize := [64, 128, 256]
    block := [16, 32, 64, 128]
    kPerBlock := [4, 8, 16, 32]
    thread := [2, 4, 8] }

/-- The points of a grid. -/
def points (grid : ScalarGrid) : List ScalarKnobs :=
  grid.blockSize.flatMap fun blockSize =>
  grid.block.flatMap fun mPerBlock =>
  grid.block.flatMap fun nPerBlock =>
  grid.kPerBlock.flatMap fun kPerBlock =>
  grid.thread.flatMap fun mPerThread =>
  grid.thread.map fun nPerThread =>
    { blockSize, mPerBlock, nPerBlock, kPerBlock, mPerThread, nPerThread }

end ScalarGrid

/-- The curated list for scalar kernels. -/
def quickScalar : List ScalarKnobs :=
  [⟨256, 64, 64, 16, 4, 4⟩,
    ⟨256, 64, 64, 8, 4, 4⟩,
    ⟨128, 64, 32, 8, 4, 4⟩,
    ⟨128, 32, 64, 8, 4, 4⟩,
    ⟨64, 32, 32, 8, 4, 4⟩]

/-- The settings of the matrix knobs that a level offers. -/
def matrixPoints (level : Level) (splitFactors : List UInt32) : List MatrixKnobs :=
  match level with
  | .quick => quickMatrix
  | .full => MatrixGrid.full.points splitFactors
  | .exhaustive => MatrixGrid.exhaustive.points splitFactors

/-- The settings of the scalar knobs that a level offers. -/
def scalarPoints : Level → List ScalarKnobs
  | .quick => quickScalar
  | .full => ScalarGrid.full.points
  | .exhaustive => ScalarGrid.exhaustive.points

end KernelTuning.Space
