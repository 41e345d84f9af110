import KernelTuning.CommandLine.Command
import KernelTuning.Problem.Json
import KernelTuning.Tuner.Json

/-!
# Running commands

A command is a function from a file store to an answer: the exit code, what is
printed, and the files afterwards.  What a command has printed before it fails
stays printed.
-/

namespace KernelTuning.CommandLine

/-- The report of a failure, the outermost context first. -/
abbrev Report := List String

/-- Why a command stopped. -/
inductive Stop where
  | failure (report : Report)
  | overflow (fault : Overflow)

/-- What a command works on. -/
structure World where
  store : FileStore
  /-- The printed lines, the last one first. -/
  lines : List String := []

/-- A command's steps. -/
abbrev Program := ExceptT Stop (StateM World)

namespace Program

/-- Prints a line. -/
def print (line : String) : Program Unit :=
  modify fun world => { world with lines := line :: world.lines }

/-- A result or the report of its fault. -/
def ofExcept {ε α : Type} (report : ε → Report) : Except ε α → Program α
  | .ok value => pure value
  | .error fault => throw (.failure (report fault))

/-- A result, the report of its fault, or an overflow. -/
def ofChecked {ε α : Type} (report : ε → Report) (result : ExceptT ε Checked α) :
    Program α :=
  match result.run with
  | .error overflow => throw (.overflow overflow)
  | .ok result => ofExcept report result

/-- A step that works on files. -/
def ofFileAction {α : Type} (action : Table.FileAction α) : Program α := do
  let world ← get
  let (result, store) := action.run.run world.store
  set { world with store := store }
  ofExcept Table.FileFault.chain result

end Program

open Program

/-- The problem that a command is about. -/
def ProblemOptions.problem (options : ProblemOptions) : Program Problem := do
  match options.problemFile with
  | some path =>
      let text ← ofExcept
        (fun error : FileError => ["reading problem file " ++ path, error.message])
        ((← get).store.read path)
      match Problem.parse? text with
      | some problem => return problem
      | none => throw (.failure ["parsing problem file " ++ path, "not a problem"])
  | none =>
      let target ← ofExcept (fun fault => [fault.message]) (Target.ofName options.arch)
      let target :=
        match options.computeUnits with
        | none => target
        | some computeUnits => target.withComputeUnits computeUnits
      let type ← ofExcept (fun fault => [fault.message]) (ElementType.ofName options.type)
      let outType ←
        match options.outType with
        | none => pure type
        | some name => ofExcept (fun fault => [fault.message]) (ElementType.ofName name)
      return { Problem.gemm options.shape type target with
        outType := outType
        transposeA := options.transposeA
        transposeB := options.transposeB
        epilogue := options.epilogue }

/-- A number, right-aligned in five columns. -/
def column (number : Nat) : String :=
  let text := toString number
  String.ofList (List.replicate (5 - text.length) ' ') ++ text

/-- The line of a candidate, if it is listed. -/
def candidateLine? (all : Bool) (index : Nat) (candidate : Candidate) : Option String :=
  let text := column index ++ " " ++ candidate.config.encode
  if candidate.coherent then some text
  else if all then some (text ++ " (incoherent)")
  else none

/-- The lines that list a tuning space. -/
def spaceLines (space : Space) (all : Bool) : List String :=
  let level := space.level.name
  let size := space.size
  let valid := space.valid.length
  s!"level={level} range={size} valid={valid}"
    :: (space.candidates.zipIdx.filterMap fun (candidate, index) =>
      candidateLine? all index candidate)

/-- Options of a session that only reads its table. -/
def readingOptions (table : Option String) : SessionOptions :=
  { tablePath := table }

/-- The signature of a problem. -/
def signatureOf (problem : Problem) : Program String :=
  ofExcept Problem.Unsigned.chain problem.signature

/-- Applies the recorded configuration of a problem. -/
def applyRecorded (table : Option String) (problem : Problem) : Program Problem := do
  let session ← ofFileAction (Session.start (readingOptions table))
  let signature ← signatureOf problem
  match session.table.applyBest problem with
  | .error overflow => throw (.overflow overflow)
  | .ok (true, configured) => return configured
  | .ok (false, _) =>
      throw (.failure ["no applicable config recorded for " ++ signature])

/-- The steps of a command. -/
def Command.steps : Command → Program Unit
  | .space options level all => do
      let problem ← options.problem
      let space ← ofExcept Space.Fault.chain (Space.build problem level)
      (spaceLines space all).forM print
  | .key options => do
      let problem ← options.problem
      print (← signatureOf problem)
  | .tune options sessionOptions => do
      let problem ← options.problem
      let session ← ofFileAction (Session.start sessionOptions)
      let (outcome, session) ←
        ofChecked Tuner.Fault.chain (session.tuneWithCostModel problem)
      print outcome.toJson.pretty
      ofFileAction session.persist
  | .lookup options table => do
      let problem ← options.problem
      let session ← ofFileAction (Session.start (readingOptions table))
      let signature ← signatureOf problem
      match session.table.find? signature with
      | some timing => print timing.toJson.pretty
      | none => print "null"
  | .apply options table config => do
      let problem ← options.problem
      let configured ←
        match config with
        | some text => ofChecked Problem.TextRejection.chain (problem.applyText text)
        | none => applyRecorded table problem
      print configured.toJson.pretty
  | .splitK g m n k computeUnits level =>
      print (SplitK.predict g m n k computeUnits level).name

/-- What running a command led to. -/
structure Answer where
  code : UInt32
  output : String
  errors : String
  store : FileStore

/-- The text of printed lines. -/
def outputOf (lines : List String) : String :=
  String.join (lines.reverse.map fun line => line ++ "\n")

/-- The causes of a failure, numbered if there are several. -/
def causes : Report → String
  | [] => ""
  | [cause] => "\n\nCaused by:\n    " ++ cause
  | causes =>
      "\n\nCaused by:" ++ String.join (causes.zipIdx.map fun (cause, index) =>
        s!"\n    {index}: " ++ cause)

/-- The report of a failure as it is printed. -/
def errorText : Report → String
  | [] => "Error\n"
  | outermost :: inner => "Error: " ++ outermost ++ causes inner ++ "\n"

/-- How the words of a command line are to be used. -/
def usage : String :=
  "usage: space|key|tune|lookup|apply|split-k [options]\n"

/-- Runs the command that words make up: code 0 after success, 1 after a failure, 2
if there is no such command, 101 after an overflow. -/
def run (store : FileStore) (words : List String) : Answer :=
  match Command.ofWords? words with
  | none => { code := 2, output := "", errors := usage, store := store }
  | some command =>
      let (result, world) := command.steps.run.run { store := store }
      let answer : Answer :=
        { code := 0
          output := outputOf world.lines
          errors := ""
          store := world.store }
      match result with
      | .ok () => answer
      | .error (.failure report) => { answer with code := 1, errors := errorText report }
      | .error (.overflow fault) =>
          { answer with code := 101, errors := fault.message ++ "\n" }

end KernelTuning.CommandLine
