import KernelTuning.CostModel
import KernelTuning.Table.File

/-!
# Sessions

A session tunes problems one after the other against one table, which may live in
a file from one session to the next.
-/

namespace KernelTuning

/-- How a session works. -/
structure SessionOptions where
  /-- The table's file; without one the table ends with the session. -/
  tablePath : Option String := none
  /-- Whether to start with an empty table. -/
  clearTable : Bool := false
  tuner : TunerOptions := {}
  /-- The seed of the cost model's noise. -/
  seed : UInt64 := 0
  deriving DecidableEq

/-- A table and the way in which it is added to. -/
structure Session where
  options : SessionOptions
  table : Table
  deriving DecidableEq

namespace Session

/-- Starts a session with the table of its file. -/
def start (options : SessionOptions) : Table.FileAction Session := do
  match options.tablePath with
  | none => return { options := options, table := .empty }
  | some path =>
      if options.clearTable then Table.clear path
      match Table.load (← get) path with
      | .error fault => throw fault
      | .ok table => return { options := options, table := table }

/-- Tunes a problem with a benchmark. -/
def tune (session : Session) (benchmark : Benchmark) (problem : Problem) :
    ExceptT Tuner.Fault Checked (Outcome × Session) := do
  let (outcome, table) ←
    Tuner.tune session.options.tuner benchmark problem session.table
  return (outcome, { session with table := table })

/-- The cost model with the session's seed. -/
def costModel (session : Session) : CostModel :=
  { seed := session.options.seed }

/-- Tunes a problem with the cost model. -/
def tuneWithCostModel (session : Session) (problem : Problem) :
    ExceptT Tuner.Fault Checked (Outcome × Session) :=
  session.tune session.costModel.benchmark problem

/-- Why a problem has not been configured. -/
inductive Fault where
  | tuning (fault : Tuner.Fault)
  | nothingRecorded (signature : String)
  | unfusible (config signature : String)
  | unsuitable (rejection : Problem.TextRejection)
  | unconfigured
  deriving DecidableEq

namespace Fault

/-- The report of a fault, the outermost context first. -/
def chain : Fault → List String
  | .tuning fault => fault.chain
  | .nothingRecorded signature => ["tuning recorded nothing for " ++ signature]
  | .unfusible config signature =>
      ["best config " ++ config ++ " for " ++ signature
        ++ " cannot be fused with the epilogue"]
  | .unsuitable rejection => rejection.chain
  | .unconfigured => ["perf config missing after apply"]

end Fault

/-- What configuring a problem led to: the configuration's text or a fault, and
problem and session afterwards. -/
structure Configured where
  result : Except Fault String
  problem : Problem
  session : Session

/-- The configuration that a problem carries. -/
def configOf (problem : Problem) : Except Fault String :=
  match problem.config with
  | none => .error .unconfigured
  | some config => .ok config

/-- Applies a freshly recorded configuration to a problem. -/
def applyOutcome (session : Session) (problem : Problem) (outcome : Outcome) :
    Checked Configured :=
  match outcome.best with
  | none => return ⟨.error (.nothingRecorded outcome.signature), problem, session⟩
  | some best =>
      if problem.canFuseText best.config then do
        match ← (problem.applyText best.config).run with
        | .error rejection => return ⟨.error (.unsuitable rejection), problem, session⟩
        | .ok configured => return ⟨configOf configured, configured, session⟩
      else
        return ⟨.error (.unfusible best.config outcome.signature), problem, session⟩

/-- Applies the recorded configuration of a problem, tuning the problem first if
there is none that can be applied. -/
def applyOrTune (session : Session) (problem : Problem) : Checked Configured := do
  let (applied, configured) ← session.table.applyBest problem
  if applied then return ⟨configOf configured, configured, session⟩
  else
    match ← (session.tuneWithCostModel problem).run with
    | .error fault => return ⟨.error (.tuning fault), problem, session⟩
    | .ok (outcome, session) => session.applyOutcome problem outcome

/-- Saves the table, if it has a file. -/
def persist (session : Session) : Table.FileAction Unit :=
  match session.options.tablePath with
  | none => pure ()
  | some path => session.table.save path

end Session

end KernelTuning
