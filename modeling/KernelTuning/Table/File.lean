import KernelTuning.File.Store
import KernelTuning.Table.Json

/-!
# Table files

A table is saved as a whole: its text is written to a temporary file, which then
takes the place of the old one, so that no reader sees half a table.
-/

namespace KernelTuning.Table

/-- Why a table file could not be used. -/
inductive FileFault where
  | clearing (path : String) (error : FileError)
  | reading (path : String) (error : FileError)
  | parsing (path : String)
  | creating (path : String) (error : FileError)
  | replacing (path : String) (error : FileError)
  deriving DecidableEq

namespace FileFault

/-- The report of a fault, the outermost context first. -/
def chain : FileFault → List String
  | .clearing path error => ["clearing tuning table " ++ path, error.message]
  | .reading path error => ["reading tuning table " ++ path, error.message]
  | .parsing path => ["parsing tuning table " ++ path, "not a tuning table"]
  | .creating path error => ["creating " ++ path, error.message]
  | .replacing path error => ["replacing " ++ path, error.message]

end FileFault

/-- A step that reads or changes a file store.  What it changed before a fault
stays changed. -/
abbrev FileAction := ExceptT FileFault (StateM FileStore)

/-- The table in a file; an absent file holds the empty table. -/
def load (store : FileStore) (path : String) : Except FileFault Table :=
  if store.contains path then
    match store.read path with
    | .error error => .error (.reading path error)
    | .ok text =>
        match parse? text with
        | none => .error (.parsing path)
        | some table => .ok table
  else .ok empty

/-- Removes a table file if there is one. -/
def clear (path : String) : FileAction Unit := do
  let store ← get
  if store.contains path then
    match store.remove path with
    | .error error => throw (.clearing path error)
    | .ok store => set store

/-- Creates the directory that a path lies in. -/
def createParent (path : String) : FileAction Unit := do
  match FilePath.parent? path with
  | none => pure ()
  | some parent =>
      if parent.isEmpty then pure ()
      else
        let (store, result) := (← get).createDirectories parent
        set store
        match result with
        | .error error => throw (.creating parent error)
        | .ok () => pure ()

/-- Writes a table to a file. -/
def save (table : Table) (path : String) : FileAction Unit := do
  createParent path
  let temporary := FilePath.temporary path
  match (← get).write temporary table.text with
  | .error error => throw (.creating temporary error)
  | .ok store => set store
  match (← get).rename temporary path with
  | .error error => throw (.replacing path error)
  | .ok store => set store

end KernelTuning.Table
