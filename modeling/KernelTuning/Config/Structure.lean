import KernelTuning.Config.Basic
import KernelTuning.Target
import KernelTuning.Word

/-!
# Structural checks

Some configurations cannot be launched on a target whatever the size of the
problem: tiles that do not divide each other, workgroups with too many threads,
tiles that exceed local memory.
-/

namespace KernelTuning

/-- What makes a configuration impossible on a target. -/
inductive StructureFault where
  | emptyWaveTile
  | unevenWaveTile
  | emptyThreadTile
  | unevenThreadTile
  | uncoveredBlock
  | threadLimit
  | ldsLimit
  deriving DecidableEq, Repr

namespace StructureFault

def message : StructureFault → String
  | .emptyWaveTile => "wave tile must be non-empty"
  | .unevenWaveTile => "wave tile must divide the block tile"
  | .emptyThreadTile => "thread tile must be non-empty"
  | .unevenThreadTile => "thread tile must divide the block tile"
  | .uncoveredBlock => "thread tiles must cover the block exactly"
  | .threadLimit => "workgroup exceeds the thread limit"
  | .ldsLimit => "block tiles do not fit in LDS"

end StructureFault

/-- Waves of a workgroup: one for every wave tile of the block tile. -/
def MatrixKnobs.waves (knobs : MatrixKnobs) : Nat :=
  (knobs.mPerBlock.toNat / knobs.mPerWave.toNat)
    * (knobs.nPerBlock.toNat / knobs.nPerWave.toNat)

/-- Threads of a workgroup: one for every thread tile of the block tile. -/
def ScalarKnobs.threads (knobs : ScalarKnobs) : Nat :=
  (knobs.mPerBlock.toNat / knobs.mPerThread.toNat)
    * (knobs.nPerBlock.toNat / knobs.nPerThread.toNat)

namespace Config

/-- The most threads that a tuned kernel may launch in one workgroup. -/
def maxThreads : Nat := 256

/-- The threads of a workgroup, provided that the tiles divide each other.  The
threads of all waves together have to fit 64 bits. -/
def threads (target : Target) : Config → ExceptT StructureFault Checked Nat
  | .matrix knobs => do
      if knobs.mPerWave = 0 ∨ knobs.nPerWave = 0 then throw .emptyWaveTile
      if knobs.mPerBlock % knobs.mPerWave ≠ 0 ∨ knobs.nPerBlock % knobs.nPerWave ≠ 0 then
        throw .unevenWaveTile
      Word.product UInt64.size knobs.waves target.waveSize.toNat
  | .scalar knobs => do
      if knobs.mPerThread = 0 ∨ knobs.nPerThread = 0 then throw .emptyThreadTile
      if knobs.mPerBlock % knobs.mPerThread ≠ 0
          ∨ knobs.nPerBlock % knobs.nPerThread ≠ 0 then
        throw .unevenThreadTile
      if knobs.threads ≠ knobs.blockSize.toNat then throw .uncoveredBlock
      return knobs.threads

/-- Local memory taken by the tiles of both operands, in bytes; it sticks at the
largest word. -/
def ldsFootprint (config : Config) (elementBytes : Nat) : Nat :=
  Word.saturatingProduct
    (Word.saturatingProduct (config.mPerBlock.toNat + config.nPerBlock.toNat)
      config.kElements)
    elementBytes

/-- Checks what depends on the knobs and the target alone. -/
def checkStructure (target : Target) (elementBytes : Nat) (config : Config) :
    ExceptT StructureFault Checked Unit := do
  let threads ← config.threads target
  if threads = 0 ∨ maxThreads < threads then throw .threadLimit
  if target.ldsBytes.toNat < config.ldsFootprint elementBytes then throw .ldsLimit

/-- Whether the structural checks find no fault. -/
def isLaunchable (target : Target) (elementBytes : Nat) (config : Config) : Bool :=
  match (config.checkStructure target elementBytes).run with
  | .ok (.ok ()) => true
  | _ => false

end Config

end KernelTuning
