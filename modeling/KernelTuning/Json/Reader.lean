import KernelTuning.Json.Token

/-!
# Reading JSON

The reader takes one token at a time.  Its state says what may come next, and
holds the arrays and objects that are still open, the innermost first; an open
array or object lists its parts from the last one back.
-/

namespace KernelTuning.Json

/-- The key of an object member; a key with a lone surrogate has no text. -/
abbrev Key := Option String

/-- An array or object that is not closed yet, and inside which a value stands or
is about to stand. -/
inductive Frame where
  | items (done : List Json)
  | members (done : List (Key × Json)) (key : Key)

/-- What the reader has seen, by what may come next. -/
inductive State where
  /-- A value has to follow. -/
  | beforeValue (stack : List Frame)
  /-- An array has been opened: a value or the closing bracket follows. -/
  | beforeFirstItem (stack : List Frame)
  /-- An object has been opened: a key or the closing brace follows. -/
  | beforeFirstKey (stack : List Frame)
  /-- A key has to follow. -/
  | beforeKey (done : List (Key × Json)) (stack : List Frame)
  /-- The colon behind a key has to follow. -/
  | beforeColon (done : List (Key × Json)) (key : Key) (stack : List Frame)
  /-- A value is complete: what follows belongs to the frame around it. -/
  | afterValue (value : Json) (stack : List Frame)

/-- The value of a closed object, given its members in order. -/
def ofMembers (members : List (Key × Json)) : Json :=
  match members.mapM fun (key, value) => key.map (·, value) with
  | some members => .object members
  | none => .unreadable

/-- The value of a token that is a whole value. -/
def ofToken? : Token → Option Json
  | .null => some .null
  | .boolean value => some (.boolean value)
  | .integer value => some (.integer value)
  | .float value => some (.float value)
  | .string (some text) => some (.string text)
  | .string none => some .unreadable
  | _ => none

namespace State

/-- A value starts with a token. -/
def start (stack : List Frame) : Token → Option State
  | .openArray => some (.beforeFirstItem stack)
  | .openObject => some (.beforeFirstKey stack)
  | token => (afterValue · stack) <$> ofToken? token

/-- The state after one more token. -/
def step : State → Token → Option State
  | .beforeValue stack, token => start stack token
  | .beforeFirstItem stack, .closeArray => some (.afterValue (.array []) stack)
  | .beforeFirstItem stack, token => start (.items [] :: stack) token
  | .beforeFirstKey stack, .closeObject => some (.afterValue (.object []) stack)
  | .beforeFirstKey stack, .string key => some (.beforeColon [] key stack)
  | .beforeKey done stack, .string key => some (.beforeColon done key stack)
  | .beforeColon done key stack, .colon =>
      some (.beforeValue (.members done key :: stack))
  | .afterValue value (.items done :: stack), .comma =>
      some (.beforeValue (.items (value :: done) :: stack))
  | .afterValue value (.items done :: stack), .closeArray =>
      some (.afterValue (.array (value :: done).reverse) stack)
  | .afterValue value (.members done key :: stack), .comma =>
      some (.beforeKey ((key, value) :: done) stack)
  | .afterValue value (.members done key :: stack), .closeObject =>
      some (.afterValue (ofMembers ((key, value) :: done).reverse) stack)
  | _, _ => none

/-- The value that has been read, if nothing is open any more. -/
def result? : State → Option Json
  | .afterValue value [] => some value
  | _ => none

end State

/-- The value that a sequence of tokens stands for. -/
def ofTokens? (tokens : List Token) : Option Json := do
  let state ← tokens.foldlM State.step (.beforeValue [])
  state.result?

/-- The value that a text stands for; blanks may surround it, and nothing else. -/
def parse? (text : String) : Option Json := do
  let tokens ← Token.scan? text.toList
  ofTokens? tokens

end KernelTuning.Json
