import KernelTuning.CommandLine.Options
import KernelTuning.Session

/-!
# Commands

The commands and their options.  Words that make up no command are a matter of
usage and of nothing else.
-/

namespace KernelTuning.CommandLine

/-- A matrix product described by options, or a file that describes a problem. -/
structure ProblemOptions where
  problemFile : Option String
  arch : String
  computeUnits : Option UInt32
  type : String
  outType : Option String
  transposeA : Bool
  transposeB : Bool
  shape : Shape
  epilogue : List Epilogue
  deriving DecidableEq

/-- What the program is asked to do. -/
inductive Command where
  /-- List a tuning space, incoherent candidates too if all are asked for. -/
  | space (problem : ProblemOptions) (level : Level) (all : Bool)
  /-- Print a signature. -/
  | key (problem : ProblemOptions)
  /-- Tune a problem with the cost model. -/
  | tune (problem : ProblemOptions) (session : SessionOptions)
  /-- Print the record of a problem. -/
  | lookup (problem : ProblemOptions) (table : Option String)
  /-- Apply a configuration, or the recorded one, and print the problem. -/
  | apply (problem : ProblemOptions) (table : Option String) (config : Option String)
  /-- Print the advice on splitting a reduction. -/
  | splitK (g m n k computeUnits : Int64) (level : Level)
  deriving DecidableEq

/-- The options that describe a problem. -/
def problemTable : OptionTable :=
  [("problem-file", .single), ("arch", .single), ("num-cu", .single),
    ("dtype", .single), ("out-type", .single), ("transpose-a", .flag),
    ("transpose-b", .flag), ("g", .single), ("m", .single), ("n", .single),
    ("k", .single), ("epilogue", .repeated)]

/-- A level, by its exact name. -/
def level? (text : String) : Option Level :=
  (Level.all.map fun level => (level.name, level)).lookup text

/-- A fused operation, by its exact name. -/
def epilogue? : String → Option Epilogue
  | "scale" => some .scale
  | "negate" => some .negate
  | "bias-add" => some .biasAdd
  | "relu" => some .relu
  | "convert" => some .convert
  | _ => none

/-- The problem that options describe; a product of order 1024 by default. -/
def ProblemOptions.ofOptions? (options : Options) : Option ProblemOptions := do
  return {
    problemFile := ← options.optional? "problem-file" path?
    arch := ← options.valueOr? "arch" "gfx90a" some
    computeUnits := ← options.optional? "num-cu" uint32?
    type := ← options.valueOr? "dtype" "f16" some
    outType := ← options.optional? "out-type" some
    transposeA := options.has "transpose-a"
    transposeB := options.has "transpose-b"
    shape :=
      { g := ← options.valueOr? "g" 1 uint64?
        m := ← options.valueOr? "m" 1024 uint64?
        n := ← options.valueOr? "n" 1024 uint64?
        k := ← options.valueOr? "k" 1024 uint64? }
    epilogue := ← (options.values "epilogue").mapM epilogue? }

/-- The options of a tuning session. -/
def sessionOptions? (options : Options) : Option SessionOptions := do
  return {
    tablePath := ← options.optional? "table" path?
    clearTable := options.has "clear-table"
    tuner :=
      { level := ← options.valueOr? "level" .full level?
        warmupRuns := ← options.valueOr? "warmup" 1 (natural? UInt64.size)
        runs := ← options.valueOr? "runs" 5 (natural? UInt64.size)
        maxCandidates := ← options.optional? "max-candidates" (natural? UInt64.size) }
    seed := ← options.valueOr? "seed" 0 uint64? }

/-- The command that words make up: its name comes first. -/
def Command.ofWords? : List String → Option Command
  | "space" :: words => do
      let options ←
        Options.read? (problemTable ++ [("level", .single), ("all", .flag)]) {} words
      let problem ← ProblemOptions.ofOptions? options
      let level ← options.valueOr? "level" .full level?
      return .space problem level (options.has "all")
  | "key" :: words => do
      let options ← Options.read? problemTable {} words
      return .key (← ProblemOptions.ofOptions? options)
  | "tune" :: words => do
      let options ← Options.read?
        (problemTable ++
          [("table", .single), ("clear-table", .flag), ("level", .single),
            ("warmup", .single), ("runs", .single), ("max-candidates", .single),
            ("seed", .single)])
        {} words
      let problem ← ProblemOptions.ofOptions? options
      return .tune problem (← sessionOptions? options)
  | "lookup" :: words => do
      let options ← Options.read? (problemTable ++ [("table", .single)]) {} words
      let problem ← ProblemOptions.ofOptions? options
      return .lookup problem (← options.optional? "table" path?)
  | "apply" :: words => do
      let options ← Options.read?
        (problemTable ++ [("table", .single), ("perf-config", .single)]) {} words
      let problem ← ProblemOptions.ofOptions? options
      let table ← options.optional? "table" path?
      return .apply problem table (options.value? "perf-config")
  | "split-k" :: words => do
      let options ← Options.read?
        [("g", .single), ("m", .single), ("n", .single), ("k", .single),
          ("num-cu", .single), ("level", .single)]
        {} words
      return .splitK
        (← options.valueOr? "g" 1 int64?)
        (← options.required? "m" int64?)
        (← options.required? "n" int64?)
        (← options.required? "k" int64?)
        (← options.required? "num-cu" int64?)
        (← options.valueOr? "level" .full level?)
  | _ => none

end KernelTuning.CommandLine
