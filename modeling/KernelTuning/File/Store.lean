import KernelTuning.File.Path

/-!
# File stores

A file store is the part of a file system that tuning touches: files and
directories, most of them below a working directory.  Tables are read from it and
written to it as a whole.
-/

namespace KernelTuning

/-- Why a file operation failed. -/
inductive FileError where
  | notFound
  | notDirectory
  | isDirectory
  | tooLong
  | nullCharacter
  deriving DecidableEq, Inhabited, Repr

namespace FileError

def message : FileError → String
  | .notFound => "no such file or directory"
  | .notDirectory => "not a directory"
  | .isDirectory => "is a directory"
  | .tooLong => "file name too long"
  | .nullCharacter => "file name with a null character"

end FileError

/-- The names that lead from the working directory to a file or directory, or from
the root, whose own name is a slash. -/
abbrev Place := List String

namespace Place

/-- The root of the file system. -/
def root : Place := ["/"]

/-- Whether a place is the working directory or one of the directories above it. -/
def isAbove (place : Place) : Bool :=
  place.all (· == "..")

/-- The place one level up. -/
def up (place : Place) : Place :=
  if place == root then root
  else if place.isAbove then place ++ [".."]
  else place.dropLast

/-- The place that a path starts from. -/
def ofStart (path : String) : Place :=
  if path.toList.head? == some '/' then root else []

end Place

/-- Files and directories. -/
structure FileStore where
  files : List (Place × String) := []
  directories : List Place := []
  deriving Inhabited

namespace FileStore

/-- Whether a directory stands at a place; root and working directory and those
above it do. -/
def isDirectory (store : FileStore) (place : Place) : Bool :=
  place.isAbove || place == .root || store.directories.contains place

/-- The text of the file at a place. -/
def file? (store : FileStore) (place : Place) : Option String :=
  store.files.lookup place

/-- The failure to find a directory at a place. -/
def missingDirectory (store : FileStore) (place : Place) : FileError :=
  if (store.file? place).isSome then .notDirectory else .notFound

/-- Refuses a path that nothing can have. -/
def checkPath (path : String) : Except FileError Unit :=
  if FilePath.hasNull path then .error .nullCharacter
  else if FilePath.isTooLong path then .error .tooLong
  else .ok ()

/-- The directory that a name leads to from another one. -/
def enter (store : FileStore) (place : Place) (name : String) : Except FileError Place :=
  if name = ".." then .ok place.up
  else if FilePath.isNameTooLong name then .error .tooLong
  else
    let inner := place ++ [name]
    if store.isDirectory inner then .ok inner
    else .error (store.missingDirectory inner)

/-- Where a path leads, and whether only a directory may stand there. -/
structure Location where
  place : Place
  asDirectory : Bool

/-- Follows a path.  The directories on the way have to exist. -/
def locate (store : FileStore) (path : String) : Except FileError Location := do
  checkPath path
  if path.isEmpty then throw .notFound
  match (FilePath.names path).reverse with
  | [] => return ⟨Place.ofStart path, true⟩
  | last :: before =>
      let directory ← before.reverse.foldlM store.enter (Place.ofStart path)
      if last = ".." then
        let place ← store.enter directory last
        return ⟨place, true⟩
      if FilePath.isNameTooLong last then throw .tooLong
      return ⟨directory ++ [last], FilePath.endsOpen path⟩

/-- Whether a path leads to a file or directory. -/
def contains (store : FileStore) (path : String) : Bool :=
  match store.locate path with
  | .error _ => false
  | .ok location =>
      store.isDirectory location.place
        || (!location.asDirectory && (store.file? location.place).isSome)

/-- The place and the text of the file that a path leads to. -/
def locateFile (store : FileStore) (path : String) : Except FileError (Place × String) := do
  let location ← store.locate path
  if store.isDirectory location.place then throw .isDirectory
  match store.file? location.place with
  | none => throw .notFound
  | some text =>
      if location.asDirectory then throw .notDirectory
      return (location.place, text)

/-- The text of a file. -/
def read (store : FileStore) (path : String) : Except FileError String := do
  let (_, text) ← store.locateFile path
  return text

/-- The store without a file. -/
def erase (store : FileStore) (place : Place) : FileStore :=
  { store with files := store.files.filter fun file => file.1 != place }

/-- The store with the text of a file replaced or added. -/
def put (store : FileStore) (place : Place) (text : String) : FileStore :=
  { store with files := (place, text) :: (store.erase place).files }

/-- The place at which a file may be written. -/
def locateTarget (store : FileStore) (path : String) : Except FileError Place := do
  let location ← store.locate path
  if store.isDirectory location.place then throw .isDirectory
  if location.asDirectory then throw .notDirectory
  return location.place

/-- Removes a file. -/
def remove (store : FileStore) (path : String) : Except FileError FileStore := do
  let (place, _) ← store.locateFile path
  return store.erase place

/-- Writes a file, whether or not there is one. -/
def write (store : FileStore) (path text : String) : Except FileError FileStore := do
  let place ← store.locateTarget path
  return store.put place text

/-- Gives a file another path, where it replaces a file. -/
def rename (store : FileStore) (source target : String) : Except FileError FileStore := do
  let (place, text) ← store.locateFile source
  let newPlace ← store.locateTarget target
  return (store.erase place).put newPlace text

/-- Enters a directory, which is created if nothing stands at its place. -/
def enterCreating
    (store : FileStore) (place : Place) (name : String) :
    FileStore × Except FileError Place :=
  match store.enter place name with
  | .error .notFound =>
      let inner := place ++ [name]
      ({ store with directories := inner :: store.directories }, .ok inner)
  | result => (store, result)

/-- Creates directories one inside the other.  Those created before a failure
stay. -/
def createAll (store : FileStore) (place : Place) :
    List String → FileStore × Except FileError Unit
  | [] => (store, .ok ())
  | name :: names =>
      match store.enterCreating place name with
      | (store, .ok inner) => store.createAll inner names
      | (store, .error error) => (store, .error error)

/-- Creates the directory of a path and those on the way to it. -/
def createDirectories (store : FileStore) (path : String) :
    FileStore × Except FileError Unit :=
  match checkPath path with
  | .error error => (store, .error error)
  | .ok () => store.createAll (Place.ofStart path) (FilePath.names path)

end FileStore

end KernelTuning
