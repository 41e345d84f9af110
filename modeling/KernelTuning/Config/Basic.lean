/-!
# Configurations

A configuration is one setting of the tiling knobs of a kernel.  Kernels built on
matrix instructions and plain scalar kernels have different knobs.
-/

namespace KernelTuning

/-- The knobs of a kernel built on matrix instructions. -/
structure MatrixKnobs where
  mPerBlock : UInt32
  nPerBlock : UInt32
  /-- Depth of a block tile, in packs of `kPack` elements. -/
  kPerBlock : UInt32
  mPerWave : UInt32
  nPerWave : UInt32
  kPack : UInt32
  /-- Number of parts into which the reduction is split. -/
  splitK : UInt32
  forceUnroll : Bool
  bCopyMore : Bool
  deriving DecidableEq, Inhabited, Repr

/-- The knobs of a scalar kernel. -/
structure ScalarKnobs where
  blockSize : UInt32
  mPerBlock : UInt32
  nPerBlock : UInt32
  kPerBlock : UInt32
  mPerThread : UInt32
  nPerThread : UInt32
  deriving DecidableEq, Inhabited, Repr

/-- One setting of the knobs of a kernel. -/
inductive Config where
  | matrix (knobs : MatrixKnobs)
  | scalar (knobs : ScalarKnobs)
  deriving DecidableEq, Inhabited, Repr

namespace Config

/-- Whether the kernel is built on matrix instructions. -/
def isMatrix : Config → Bool
  | .matrix _ => true
  | .scalar _ => false

def mPerBlock : Config → UInt32
  | .matrix knobs => knobs.mPerBlock
  | .scalar knobs => knobs.mPerBlock

def nPerBlock : Config → UInt32
  | .matrix knobs => knobs.nPerBlock
  | .scalar knobs => knobs.nPerBlock

def kPerBlock : Config → UInt32
  | .matrix knobs => knobs.kPerBlock
  | .scalar knobs => knobs.kPerBlock

def kPack : Config → UInt32
  | .matrix knobs => knobs.kPack
  | .scalar _ => 1

def splitK : Config → UInt32
  | .matrix knobs => knobs.splitK
  | .scalar _ => 1

/-- K elements that a block consumes in one step of the main loop. -/
def kElements (config : Config) : Nat :=
  config.kPerBlock.toNat * config.kPack.toNat

end Config

end KernelTuning
