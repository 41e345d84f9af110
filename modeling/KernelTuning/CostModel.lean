import KernelTuning.Noise.Generator
import KernelTuning.Noise.SipHash
import KernelTuning.Tuner

/-!
# The cost model

A stand-in for a device: the time of a configured problem is the larger of its
arithmetic and its memory time, with the overhead of the main loop and of the
launch added, times a small noise that depends on a seed and the configuration.
Time is computed in double-precision arithmetic.
-/

namespace KernelTuning

namespace Shape

/-- The floating operations of the product: one multiplication and one addition for
every K element of every result. -/
def operations (shape : Shape) : Float :=
  2.0 * shape.g.toFloat * shape.m.toFloat * shape.n.toFloat * shape.k.toFloat

end Shape

/-- A cost model with its seed and relative noise. -/
structure CostModel where
  seed : UInt64 := 0
  noise : Float := 0.02

namespace CostModel

/-- The larger of two numbers, or the only one of them that is a number. -/
def larger (x y : Float) : Float :=
  if x.isNaN then y
  else if y.isNaN then x
  else if x < y then y
  else x

/-- The model with its noise replaced; noise is not negative. -/
def withNoise (model : CostModel) (noise : Float) : CostModel :=
  { model with noise := larger noise 0.0 }

/-- Milliseconds of one launch. -/
def launchOverhead : Float := 0.005

/-- Milliseconds of one step of the main loop. -/
def loopOverhead : Float := 0.00002

/-- Arithmetic rate of one compute unit in billions of operations per second. -/
def unitRate (generation : Generation) (matrix : Bool) : Float :=
  if matrix then
    match generation with
    | .cdna3 => 4300.0
    | .cdna2 => 1800.0
    | .cdna1 => 1000.0
    | .rdna3 => 1300.0
    | .gcn | .rdna2 => 500.0
  else 250.0

/-- Memory rate in billions of bytes per second. -/
def bandwidth : Generation → Float
  | .cdna3 => 5300.0
  | .cdna2 => 1600.0
  | .cdna1 => 1200.0
  | .gcn => 1000.0
  | .rdna3 => 960.0
  | .rdna2 => 512.0

/-- The double-precision number nearest to a 64-bit natural number. -/
def number (value : Nat) : Float :=
  (UInt64.ofNat value).toFloat

/-- A quotient rounded up; the divisor is positive. -/
def quotientUp (value divisor : Nat) : Nat :=
  (value + divisor - 1) / divisor

/-- The least whole number that is not below a number, which is not negative.  From
`2 ^ 53` on every number is whole. -/
def roundedUp (x : Float) : Float :=
  if x < 9007199254740992.0 then
    let whole := x.toUInt64.toFloat
    if whole < x then whole + 1.0 else whole
  else x

/-- The noise-free time of a problem with a configuration. -/
def estimate (problem : Problem) (config : Config) : Float :=
  let shape := problem.shape
  let target := problem.target
  let units := number (max target.computeUnits.toNat 1)
  let mPerBlock := max config.mPerBlock.toNat 1
  let nPerBlock := max config.nPerBlock.toNat 1
  let splitK := max config.splitK.toNat 1
  let g := shape.g.toFloat
  let m := shape.m.toFloat
  let n := shape.n.toFloat
  let k := shape.k.toFloat
  let mTileCount := quotientUp shape.m.toNat mPerBlock
  let nTileCount := quotientUp shape.n.toNat nPerBlock
  let mTiles := number mTileCount
  let nTiles := number nTileCount
  let blocks := g * mTiles * nTiles * number splitK
  let rounds := larger (roundedUp (blocks / units)) 1.0
  let occupancy := blocks / (rounds * units)
  let padded := mTiles * number mPerBlock * (nTiles * number nPerBlock)
  let efficiency := m * n / padded
  let peak := units * unitRate target.generation config.isMatrix
  let compute := shape.operations / (peak * 1.0e6 * occupancy * efficiency)
  let elementBytes := number problem.aType.bytes
  let resultBytes := number problem.outType.bytes
  let aBytes := g * m * k * elementBytes * nTiles
  let bBytes := g * k * n * elementBytes * mTiles
  let cBytes :=
    g * m * n * resultBytes * (if 1 < splitK then 2.0 * number splitK else 1.0)
  let memory := (aBytes + bBytes + cBytes) / (bandwidth target.generation * 1.0e6)
  let depth := quotientUp shape.k.toNat splitK
  let iterations := number (quotientUp depth (max config.kElements 1))
  let loop := iterations * rounds * loopOverhead
  let loop :=
    match config with
    | .matrix knobs => if knobs.forceUnroll then loop else loop * 1.5
    | .scalar _ => loop
  larger compute memory + loop + launchOverhead

/-- The factor by which the noise changes the time of a configuration. -/
def jitter (model : CostModel) (config : String) : Float :=
  if model.noise == 0.0 then 1.0
  else
    let generator : Noise.Generator := ⟨model.seed ^^^ Noise.hashText config⟩
    1.0 + model.noise * (generator.fraction 64 * 2.0 - 1.0)

/-- Why a problem has no time. -/
inductive Fault where
  | noConfig
  | unreadable (error : Config.ParseError)
  deriving DecidableEq

namespace Fault

def message : Fault → String
  | .noConfig => "problem has no perf config applied"
  | .unreadable error => error.message

end Fault

/-- The time of one run of a problem with the configuration that is written in it. -/
def run (model : CostModel) (problem : Problem) : Except Fault Binary64 :=
  match problem.config with
  | none => .error .noConfig
  | some text =>
      match Config.decode text with
      | .error error => .error (.unreadable error)
      | .ok config => .ok (.ofFloat (estimate problem config * model.jitter text))

/-- The model as a benchmark. -/
def benchmark (model : CostModel) : Benchmark := fun problem =>
  (model.run problem).toOption

end CostModel

end KernelTuning
