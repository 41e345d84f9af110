import KernelTuning.Space.Basic
import KernelTuning.Table.Basic

/-!
# Tuning

Tuning measures the candidates of a problem's space one after the other and
records each measured time in a table.  The benchmark is a function of the
configured problem: it times one run, or fails.
-/

namespace KernelTuning

/-- The time of one run of a configured problem, in milliseconds. -/
abbrev Benchmark := Problem → Option Binary64

/-- How a problem is tuned. -/
structure TunerOptions where
  level : Level := .full
  /-- Runs before the time is taken. -/
  warmupRuns : Nat := 1
  runs : Nat := 5
  /-- The most candidates that are measured, in the order of the space. -/
  maxCandidates : Option Nat := none
  deriving DecidableEq

namespace TunerOptions

/-- The options with the numbers of runs replaced; there is at least one. -/
def withRuns (options : TunerOptions) (warmupRuns runs : Nat) : TunerOptions :=
  { options with warmupRuns := warmupRuns, runs := max runs 1 }

end TunerOptions

/-- What tuning one problem led to. -/
structure Outcome where
  signature : String
  /-- The record of the problem afterwards. -/
  best : Option Timing
  /-- Candidates with a time. -/
  evaluated : Nat
  /-- Candidates that the benchmark failed on. -/
  rejected : Nat
  /-- Candidates that were recorded. -/
  improved : Nat
  deriving DecidableEq

namespace Tuner

/-- Why a problem was not tuned. -/
inductive Fault where
  | unsigned (fault : Problem.Unsigned)
  | noSpace (fault : Space.Fault)
  | noCandidates (signature : String) (level : Level) (size : Nat)
  deriving DecidableEq

namespace Fault

/-- The report of a fault, the outermost context first. -/
def chain : Fault → List String
  | .unsigned fault => fault.chain
  | .noSpace fault => fault.chain
  | .noCandidates signature level size =>
      let level := level.name
      ["no valid perf config for " ++ signature
        ++ s!" at level {level} ({size} raw candidates)"]

end Fault

/-- The mean of a number of runs that all take the same time.  Times are added up
one by one, so the mean can differ from the time in its last bits. -/
def mean (runs : Nat) (time : Binary64) : Binary64 :=
  let total := runs.fold (fun _ _ total => total + time.toFloat) (0.0 : Float)
  .ofFloat (total / (UInt64.ofNat runs).toFloat)

/-- The mean time of a configuration, absent if the benchmark fails.  A benchmark
depends on the configured problem alone, so one run stands for all of them, those
for warming up included. -/
def measure
    (options : TunerOptions) (benchmark : Benchmark) (problem : Problem)
    (config : Config) : Checked (Option Binary64) := do
  match ← (problem.apply config).run with
  | .error _ => return none
  | .ok configured => return (benchmark configured).map (mean (max options.runs 1))

/-- The state of a sweep over candidates. -/
structure Sweep where
  table : Table
  evaluated : Nat := 0
  rejected : Nat := 0
  improved : Nat := 0

/-- Takes the time of one candidate into account. -/
def Sweep.record
    (sweep : Sweep) (signature : String) (config : Config) : Option Binary64 → Sweep
  | none => { sweep with rejected := sweep.rejected + 1 }
  | some time =>
      let (table, improved) := sweep.table.update signature ⟨config.encode, time⟩
      { sweep with
        table := table
        evaluated := sweep.evaluated + 1
        improved := if improved then sweep.improved + 1 else sweep.improved }

/-- Measures candidates in order. -/
def sweep
    (options : TunerOptions) (benchmark : Benchmark) (problem : Problem)
    (signature : String) (configs : List Config) (table : Table) : Checked Sweep :=
  configs.foldlM
    (fun sweep config => do
      let time ← measure options benchmark problem config
      return sweep.record signature config time)
    { table := table }

/-- The candidates that tuning measures: valid ones that may be combined with the
fused operations, as many as the options allow. -/
def candidates (options : TunerOptions) (problem : Problem) (space : Space) :
    List Config :=
  let fusible := space.valid.filter problem.canFuse
  match options.maxCandidates with
  | none => fusible
  | some limit => fusible.take limit

/-- What a sweep amounts to. -/
def Sweep.outcome (sweep : Sweep) (signature : String) : Outcome :=
  { signature := signature
    best := sweep.table.find? signature
    evaluated := sweep.evaluated
    rejected := sweep.rejected
    improved := sweep.improved }

/-- Tunes a problem and records the results.  On a fault nothing is recorded. -/
def tune
    (options : TunerOptions) (benchmark : Benchmark) (problem : Problem)
    (table : Table) : ExceptT Fault Checked (Outcome × Table) :=
  match problem.signature, Space.build problem options.level with
  | .error fault, _ => throw (.unsigned fault)
  | _, .error fault => throw (.noSpace fault)
  | .ok signature, .ok space =>
      let configs := candidates options problem space
      if configs.isEmpty then
        throw (.noCandidates signature options.level space.size)
      else do
        let sweep ← sweep options benchmark problem signature configs table
        return (sweep.outcome signature, sweep.table)

end Tuner

end KernelTuning
