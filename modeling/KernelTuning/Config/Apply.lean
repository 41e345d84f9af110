import KernelTuning.Config.Structure
import KernelTuning.Config.Text
import KernelTuning.Instruction.Basic
import KernelTuning.Problem.Basic

/-!
# Applying configurations

A configuration is applied to a problem only after it has been checked against it.
Applying writes the configuration's text into the problem and asks for a zeroed
result when the reduction is split, since the parts are then added up in place.  A
configuration that fails a check leaves the problem alone.
-/

namespace KernelTuning

/-- Why a configuration does not suit a problem. -/
inductive Rejection where
  | invalidProblem (fault : Problem.Fault)
  | wrongPath (config : Config) (problem : Problem)
  | structural (config : Config) (fault : StructureFault)
  | noInstruction (problem : Problem) (knobs : MatrixKnobs)
  | underfed (knobs : MatrixKnobs) (instruction : Instruction)
  | noAtomicAdd (problem : Problem)
  | splitTooFine (knobs : MatrixKnobs) (problem : Problem)
  deriving DecidableEq

namespace Rejection

/-- The name of a kernel path. -/
def pathName (matrix : Bool) : String :=
  if matrix then "matrix-instruction" else "scalar"

def message : Rejection → String
  | .invalidProblem fault => fault.message
  | .wrongPath config problem =>
      let text := config.encode
      let wanted := pathName config.isMatrix
      let used := pathName problem.usesMatrix
      let aType := problem.aType.name
      let bType := problem.bType.name
      let chip := problem.target.chip
      s!"perf config {text} targets the {wanted} path but {aType}x{bType} on {chip} uses the {used} path"
  | .structural config fault =>
      let text := config.encode
      let reason := fault.message
      s!"perf config {text} rejected: {reason}"
  | .noInstruction problem knobs =>
      let chip := problem.target.chip
      let type := problem.aType.name
      s!"no matrix instruction on {chip} for {type} with wave tile {knobs.mPerWave}x{knobs.nPerWave}"
  | .underfed knobs instruction =>
      let elements := knobs.kPerBlock.toNat * knobs.kPack.toNat
      let name := instruction.name
      let needed := instruction.inputLength
      s!"k_per_block * k_pack = {elements} cannot feed {name} (input length {needed})"
  | .noAtomicAdd problem =>
      let type := problem.outType.name
      let chip := problem.target.chip
      s!"split-K needs atomic add on {type} output, which {chip} lacks"
  | .splitTooFine knobs problem =>
      s!"split-K factor {knobs.splitK} exceeds K = {problem.shape.k}"

end Rejection

namespace Problem

/-- The matrix instruction for a wave tile of the problem. -/
def instruction? (problem : Problem) (knobs : MatrixKnobs) : Option Instruction :=
  Instruction.select? problem.target problem.aType problem.bType
    knobs.mPerWave knobs.nPerWave

/-- The checks that only kernels built on matrix instructions have to pass. -/
def validateMatrix (problem : Problem) (knobs : MatrixKnobs) :
    ExceptT Rejection Checked Unit := do
  match problem.instruction? knobs with
  | none => throw (.noInstruction problem knobs)
  | some instruction =>
      let fed ← instruction.isFed knobs.kPack knobs.kPerBlock
      unless fed do throw (.underfed knobs instruction)
      if 1 < knobs.splitK then
        unless problem.target.supportsAtomicAdd problem.outType do
          throw (.noAtomicAdd problem)
        if problem.shape.k.toNat < knobs.splitK.toNat then
          throw (.splitTooFine knobs problem)

/-- Checks a configuration against a problem. -/
def validateConfig (problem : Problem) (config : Config) :
    ExceptT Rejection Checked Unit := do
  match problem.validate with
  | .error fault => throw (.invalidProblem fault)
  | .ok () => pure ()
  if config.isMatrix ≠ problem.usesMatrix then throw (.wrongPath config problem)
  (config.checkStructure problem.target problem.aType.bytes).adapt (.structural config)
  match config with
  | .matrix knobs => problem.validateMatrix knobs
  | .scalar _ => pure ()

/-- The prefill request of a configuration: a zeroed result for a split
reduction. -/
def resultPrefill (problem : Problem) (config : Config) : Option InitialValue :=
  if 1 < config.splitK then some (.zeroOf problem.outType) else none

/-- The problem with a configuration attached, whatever the checks say. -/
def withConfig (problem : Problem) (config : Config) : Problem :=
  { problem with config := some config.encode }.setResultPrefill
    (problem.resultPrefill config)

/-- The problem with a configuration attached, if it passes the checks. -/
def apply (problem : Problem) (config : Config) : ExceptT Rejection Checked Problem := do
  problem.validateConfig config
  return problem.withConfig config

/-- Whether K tiling and instruction of a configuration match.  Scalar kernels only
need a nonempty tile. -/
def isCoherent (problem : Problem) : Config → Checked Bool
  | .matrix knobs =>
      match problem.instruction? knobs with
      | none => .ok false
      | some instruction => instruction.isFed knobs.kPack knobs.kPerBlock
  | .scalar knobs => .ok (decide (1 ≤ knobs.kPerBlock))

/-- Whether a configuration may be combined with the fused operations: the parts of
a split reduction pass through them one by one. -/
def canFuse (problem : Problem) (config : Config) : Bool :=
  config.splitK == 1 || problem.epilogueDistributes

/-- Whether a text is a configuration that may be combined with the fused
operations. -/
def canFuseText (problem : Problem) (text : String) : Bool :=
  match Config.decode text with
  | .ok config => problem.canFuse config
  | .error _ => false

/-- Why a text could not be applied to a problem. -/
inductive TextRejection where
  | unreadable (text : String) (error : Config.ParseError)
  | rejected (rejection : Rejection)
  deriving DecidableEq

namespace TextRejection

/-- The report of a rejection, the outermost context first. -/
def chain : TextRejection → List String
  | .unreadable text error =>
      ["invalid perf config '" ++ text ++ "'", error.message]
  | .rejected rejection => [rejection.message]

end TextRejection

/-- The problem with the configuration of a text attached, if the text is one and
passes the checks. -/
def applyText (problem : Problem) (text : String) :
    ExceptT TextRejection Checked Problem := do
  match Config.decode text with
  | .error error => throw (.unreadable text error)
  | .ok config => (problem.apply config).adapt .rejected

end Problem

end KernelTuning
