import KernelTuning.Json.Number
import KernelTuning.Json.Quoted

/-!
# Writing JSON

A value is written compactly, without any blank, or with every item and member on
a line of its own.  Empty arrays and objects take two characters in both layouts.
-/

namespace KernelTuning.Json

/-- The blanks of a layout: what stands before an item at a given depth, and
after a colon. -/
structure Layout where
  line : Nat → List Char
  afterColon : List Char

namespace Layout

/-- No blanks at all. -/
def compact : Layout := ⟨fun _ => [], []⟩

/-- A line for every item, indented by two blanks for each level. -/
def pretty : Layout := ⟨fun depth => '\n' :: List.replicate (2 * depth) ' ', [' ']⟩

end Layout

mutual

/-- The text of a value that stands at a given depth. -/
def write (layout : Layout) (depth : Nat) : Json → List Char
  | .null => "null".toList
  | .boolean true => "true".toList
  | .boolean false => "false".toList
  | .integer value => writeInteger value
  | .float value => writeFloat value
  | .string value => Quoted.write value.toList
  | .array [] => ['[', ']']
  | .array (item :: items) =>
      '[' :: layout.line (depth + 1) ++ write layout (depth + 1) item
        ++ writeItems layout (depth + 1) items ++ layout.line depth ++ [']']
  | .object [] => ['\x7b', '\x7d']
  | .object ((key, value) :: members) =>
      '\x7b' :: layout.line (depth + 1) ++ Quoted.write key.toList ++ ':' :: layout.afterColon
        ++ write layout (depth + 1) value
        ++ writeMembers layout (depth + 1) members ++ layout.line depth ++ ['\x7d']
  | .unreadable => "null".toList

/-- The items behind the first one, each with the comma before it. -/
def writeItems (layout : Layout) (depth : Nat) : List Json → List Char
  | [] => []
  | item :: items =>
      ',' :: layout.line depth ++ write layout depth item
        ++ writeItems layout depth items

/-- The members behind the first one, each with the comma before it. -/
def writeMembers (layout : Layout) (depth : Nat) : List (String × Json) → List Char
  | [] => []
  | (key, value) :: members =>
      ',' :: layout.line depth ++ Quoted.write key.toList ++ ':' :: layout.afterColon
        ++ write layout depth value ++ writeMembers layout depth members

end

/-- The text without blanks. -/
def compact (value : Json) : String :=
  String.ofList (write .compact 0 value)

/-- The text with a line for every item and member. -/
def pretty (value : Json) : String :=
  String.ofList (write .pretty 0 value)

end KernelTuning.Json
