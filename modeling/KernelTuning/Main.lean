import KernelTuning.CommandLine.Run

/-!
# The program

The program takes the files that its words name into a file store, runs the
command, prints what it answers and writes back the files that changed.
-/

namespace KernelTuning.CommandLine

/-- The paths of the files that a problem may be read from. -/
def ProblemOptions.paths (options : ProblemOptions) : List String :=
  options.problemFile.toList

/-- The paths of the files that a command may touch. -/
def Command.paths : Command → List String
  | .space problem _ _ | .key problem => problem.paths
  | .tune problem session => problem.paths ++ session.tablePath.toList
  | .lookup problem table | .apply problem table _ => problem.paths ++ table.toList
  | .splitK .. => []

/-- The path of a place. -/
def pathOf : Place → String
  | "/" :: names => "/" ++ "/".intercalate names
  | names => "/".intercalate names

/-- The store with whatever a path leads to. -/
def takeIn (store : FileStore) (path : String) : IO FileStore := do
  let parent := (FilePath.parent? path).getD ""
  try
    let text ← IO.FS.readFile path
    let (store, _) := store.createDirectories parent
    match store.write path text with
    | .ok store => return store
    | .error _ => return store
  catch
    | .inappropriateType .. => return (store.createDirectories path).1
    | _ => return store

/-- Writes a file as a whole. -/
def writeBack (place : Place) (text : String) : IO Unit := do
  let path := pathOf place
  match FilePath.parent? path with
  | some parent => unless parent.isEmpty do IO.FS.createDirAll parent
  | none => pure ()
  let temporary := FilePath.temporary path
  IO.FS.writeFile temporary text
  IO.FS.rename temporary path

/-- Makes the files on disk those of a store, given the store they were taken
into. -/
def commit (before after : FileStore) : IO Unit := do
  for (place, _) in before.files do
    if (after.file? place).isNone then IO.FS.removeFile (pathOf place)
  for (place, text) in after.files do
    if before.file? place != some text then writeBack place text

end KernelTuning.CommandLine

open KernelTuning KernelTuning.CommandLine in
/-- Runs the command that the words make up. -/
def main (words : List String) : IO UInt32 := do
  let paths := (Command.ofWords? words).map Command.paths
  let before ← (paths.getD []).foldlM takeIn {}
  let answer := run before words
  IO.print answer.output
  IO.eprint answer.errors
  commit before answer.store
  return answer.code
