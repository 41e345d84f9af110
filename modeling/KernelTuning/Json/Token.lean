import KernelTuning.Json.Number
import KernelTuning.Json.Quoted

/-!
# JSON tokens

A JSON text is a sequence of tokens with blanks between them.  Both layouts of a
value consist of the same tokens, so reading is a matter of tokens alone.
-/

namespace KernelTuning.Json

/-- A lexical unit.  A string literal without a text has a lone surrogate. -/
inductive Token where
  | openArray
  | closeArray
  | openObject
  | closeObject
  | comma
  | colon
  | null
  | boolean (value : Bool)
  | integer (value : Int)
  | float (value : Binary64)
  | string (value : Option String)
  deriving DecidableEq

namespace Token

/-- The characters that may stand between two tokens. -/
def isBlank (char : Char) : Bool :=
  char == ' ' || char == '\t' || char == '\n' || char == '\r'

/-- The characters that a number is made of. -/
def isNumeric (char : Char) : Bool :=
  char.isDigit || char == '-' || char == '+' || char == '.' || char == 'e' || char == 'E'

/-- The token of a word, of which there are three. -/
def word? (letters : List Char) : Option Token :=
  if letters = "null".toList then some .null
  else if letters = "true".toList then some (.boolean true)
  else if letters = "false".toList then some (.boolean false)
  else none

/-- The token of a number literal. -/
def number? (literal : List Char) : Option Token :=
  match Json.number? literal with
  | some (.integer value) => some (.integer value)
  | some (.float value) => some (.float value)
  | _ => none

/-- The token that starts with a character, and the text behind it.  A number
reaches as far as its characters do: nothing that may follow a number starts with
one of them. -/
def next? (first : Char) (rest : List Char) : Option (Token × List Char) :=
  match first with
  | '[' => some (.openArray, rest)
  | ']' => some (.closeArray, rest)
  | '\x7b' => some (.openObject, rest)
  | '\x7d' => some (.closeObject, rest)
  | ',' => some (.comma, rest)
  | ':' => some (.colon, rest)
  | '"' => do
      let (pieces, rest) ← Quoted.pieces? rest
      some (.string (String.ofList <$> Quoted.join? pieces), rest)
  | first =>
      if first.isAlpha then do
        let token ← word? (first :: rest.takeWhile Char.isAlpha)
        some (token, rest.dropWhile Char.isAlpha)
      else do
        let token ← number? (first :: rest.takeWhile isNumeric)
        some (token, rest.dropWhile isNumeric)

private theorem length_dropWhile_le (test : Char → Bool) (chars : List Char) :
    (chars.dropWhile test).length ≤ chars.length :=
  (List.dropWhile_sublist test).length_le

theorem length_le_of_next?
    {first : Char} {chars rest : List Char} {token : Token}
    (read : next? first chars = some (token, rest)) :
    rest.length ≤ chars.length := by
  unfold next? at read
  split at read
  case h_7 =>
    simp only [Option.bind_eq_bind, Option.bind_eq_some_iff, Option.some.injEq,
      Prod.mk.injEq, Prod.exists] at read
    obtain ⟨_, _, pieces, _, rfl⟩ := read
    exact Nat.le_of_lt (Quoted.length_lt_of_pieces? pieces)
  case h_8 =>
    split at read <;>
      simp only [Option.bind_eq_bind, Option.bind_eq_some_iff, Option.some.injEq,
        Prod.mk.injEq] at read
    · obtain ⟨_, _, _, rfl⟩ := read
      exact length_dropWhile_le _ _
    · obtain ⟨_, _, _, rfl⟩ := read
      exact length_dropWhile_le _ _
  all_goals
    simp only [Option.some.injEq, Prod.mk.injEq] at read
    simp [read.2]

/-- The tokens of a text, if it consists of tokens and blanks. -/
def scan? : List Char → Option (List Token)
  | [] => some []
  | first :: rest =>
      if isBlank first then scan? rest
      else
        match _ : next? first rest with
        | none => none
        | some (token, remaining) => (token :: ·) <$> scan? remaining
termination_by chars => chars.length
decreasing_by
  · simp
  · have shorter := length_le_of_next? ‹_›
    simp only [List.length_cons]
    omega

end Token

end KernelTuning.Json
