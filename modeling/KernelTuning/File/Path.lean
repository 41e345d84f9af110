/-!
# File paths

A path consists of names between slashes.  Empty names and dots are skipped,
except for a dot at the very start, which stays when a part of the path is shown.
The length of a path and of each name is limited.
-/

namespace KernelTuning.FilePath

/-- Whether a piece between two slashes names something. -/
def isName (piece : List Char) : Bool :=
  piece != [] && piece != ['.']

/-- What a path starts with before its first name: a slash, a dot or nothing. -/
def stem : List Char → List Char × List Char
  | '/' :: rest => (['/'], rest)
  | ['.'] => (['.'], [])
  | '.' :: '/' :: rest => (['.'], '/' :: rest)
  | path => ([], path)

/-- A path taken apart at its last name. -/
structure Parts where
  stem : List Char
  before : List (List Char)
  last : Option (List Char)

/-- Takes a path apart; neither half ends in skipped pieces. -/
def parts (path : List Char) : Parts :=
  let (stem, body) := stem path
  match (body.splitOn '/').reverse.dropWhile (!isName ·) with
  | [] => ⟨stem, [], none⟩
  | last :: before => ⟨stem, (before.dropWhile (!isName ·)).reverse, some last⟩

/-- The path without its last name; a path without any name has none. -/
def parent? (path : String) : Option String :=
  match parts path.toList with
  | ⟨stem, before, some _⟩ =>
      some (String.ofList (stem ++ ['/'].intercalate before))
  | ⟨['.'], _, none⟩ => some ""
  | _ => none

/-- The last name, unless it leads upwards. -/
def fileName? (path : String) : Option String :=
  match (parts path.toList).last with
  | none => none
  | some name => if name = ['.', '.'] then none else some (String.ofList name)

/-- A path with one more name. -/
def join (path name : String) : String :=
  if path.isEmpty then name
  else if path.toList.getLast? = some '/' then path ++ name
  else path ++ "/" ++ name

/-- The path with another last name, which is added where there is none. -/
def withFileName (path name : String) : String :=
  match fileName? path with
  | none => join path name
  | some _ => join ((parent? path).getD "") name

/-- The path under which a file is written before it takes its place. -/
def temporary (path : String) : String :=
  withFileName path ((fileName? path).getD "" ++ ".tmp")

/-- The names of a path, in order. -/
def names (path : String) : List String :=
  ((path.toList.splitOn '/').filter isName).map String.ofList

/-- The bytes that a path may have. -/
def pathLimit : Nat := 4095

/-- The bytes that a name may have. -/
def nameLimit : Nat := 255

/-- Whether a path is too long as a whole. -/
def isTooLong (path : String) : Bool :=
  decide (pathLimit < path.utf8ByteSize)

/-- Whether a name is too long. -/
def isNameTooLong (name : String) : Bool :=
  decide (nameLimit < name.utf8ByteSize)

/-- Whether a path has the null character, which no name may have. -/
def hasNull (path : String) : Bool :=
  path.toList.contains '\x00'

/-- Whether a path can only be that of a directory, because no name ends it. -/
def endsOpen (path : String) : Bool :=
  match (path.toList.splitOn '/').getLast? with
  | some piece => !isName piece
  | none => true

end KernelTuning.FilePath
