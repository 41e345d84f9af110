import KernelTuning.Config.Apply
import KernelTuning.Space.Grid
import KernelTuning.SplitK

/-!
# Tuning spaces

The tuning space of a problem at a level is the list of the level's configurations
that can be launched and are not larger than the problem.  A configuration whose K
tiling cannot feed its instruction keeps its place and counts towards the size, but
is reported as absent.

Configurations of the grids are far from every arithmetic limit, so a check that
overflowed would count as failed here without any such case arising.
-/

namespace KernelTuning

/-- One place of a tuning space. -/
structure Candidate where
  config : Config
  /-- Whether K tiling and instruction match. -/
  coherent : Bool
  deriving DecidableEq, Inhabited, Repr

/-- The ordered candidates of a problem at a level. -/
structure Space where
  level : Level
  problem : Problem
  candidates : List Candidate
  deriving DecidableEq

namespace Space

/-- A problem for which there is no tuning space. -/
structure Fault where
  fault : Problem.Fault
  deriving DecidableEq

namespace Fault

/-- The report of a fault, the outermost context first. -/
def chain (fault : Fault) : List String :=
  ["cannot build a tuning space for this problem", fault.fault.message]

end Fault

/-- The configurations that a level offers for a problem. -/
def points (problem : Problem) (level : Level) : List Config :=
  if problem.usesMatrix then
    (matrixPoints level (SplitK.factors problem level)).map .matrix
  else (scalarPoints level).map .scalar

/-- The least extent to which an axis of the output is padded. -/
def leastExtent : Nat := 32

/-- The extent that a block tile may cover along an axis of the output. -/
def paddedExtent (extent : UInt64) : Nat :=
  max (Word.paddedPower extent.toNat) leastExtent

/-- Whether a configuration is no larger than the problem. -/
def fitsShape (shape : Shape) (config : Config) : Bool :=
  decide (config.mPerBlock.toNat ≤ paddedExtent shape.m)
    && decide (config.nPerBlock.toNat ≤ paddedExtent shape.n)
    && decide (config.kElements * config.splitK.toNat ≤ Word.paddedPower shape.k.toNat)

/-- Whether a configuration can be launched and is no larger than the problem. -/
def admits (problem : Problem) (config : Config) : Bool :=
  config.isLaunchable problem.target problem.aType.bytes
    && fitsShape problem.shape config

/-- The candidate for an admitted configuration. -/
def candidate (problem : Problem) (config : Config) : Candidate :=
  { config := config
    coherent :=
      match problem.isCoherent config with
      | .ok coherent => coherent
      | .error _ => false }

/-- The tuning space of a problem at a level. -/
def build (problem : Problem) (level : Level) : Except Fault Space :=
  match problem.validate with
  | .error fault => .error ⟨fault⟩
  | .ok () =>
      .ok
        { level := level
          problem := problem
          candidates :=
            ((points problem level).filter (admits problem)).map (candidate problem) }

/-- The number of candidates, absent ones included. -/
def size (space : Space) : Nat :=
  space.candidates.length

/-- The configuration at a place, unless the place is beyond the end or its
candidate is incoherent. -/
def get? (space : Space) (index : Nat) : Option Config :=
  match space.candidates[index]? with
  | some candidate => if candidate.coherent then some candidate.config else none
  | none => none

/-- The configurations that `get?` finds, in order. -/
def valid (space : Space) : List Config :=
  (space.candidates.filter Candidate.coherent).map Candidate.config

end Space

end KernelTuning
