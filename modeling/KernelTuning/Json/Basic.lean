import KernelTuning.Binary64

/-!
# JSON values

Problems, tuning tables and tuning outcomes are exchanged as JSON.  A value keeps
what a decoder may depend on: whether a number was written as an integer, and the
members of an object in the order in which they stand, repetitions included.
-/

namespace KernelTuning

/-- A JSON value.  `unreadable` is a well-formed piece of text that stands for no
value because a string in it contains half of a surrogate pair; it may be skipped
but not decoded. -/
inductive Json where
  | null
  | boolean (value : Bool)
  | integer (value : Int)
  | float (value : Binary64)
  | string (value : String)
  | array (items : List Json)
  | object (members : List (String × Json))
  | unreadable
  deriving Inhabited

end KernelTuning
