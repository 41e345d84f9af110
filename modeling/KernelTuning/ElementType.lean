/-!
# Element types

The types of operand and result elements, with the size of an element and the
type in which matrix instructions add up products.
-/

namespace KernelTuning

/-- The type of a tensor's elements. -/
inductive ElementType where
  | f32
  | f16
  | bf16
  | i8
  | i32
  deriving DecidableEq, Inhabited, Repr

namespace ElementType

/-- Every element type. -/
def all : List ElementType := [.f32, .f16, .bf16, .i8, .i32]

def name : ElementType → String
  | .f32 => "f32"
  | .f16 => "f16"
  | .bf16 => "bf16"
  | .i8 => "i8"
  | .i32 => "i32"

/-- The size of an element in bytes. -/
def bytes : ElementType → Nat
  | .f32 | .i32 => 4
  | .f16 | .bf16 => 2
  | .i8 => 1

/-- The type in which products of this type are added up. -/
def accumulator : ElementType → ElementType
  | .i8 | .i32 => .i32
  | .f32 | .f16 | .bf16 => .f32

/-- Whether the elements are integers. -/
def isInteger : ElementType → Bool
  | .i8 | .i32 => true
  | .f32 | .f16 | .bf16 => false

/-- A name that belongs to no element type, in small letters. -/
structure Unknown where
  name : String
  deriving DecidableEq

namespace Unknown

def message (unknown : Unknown) : String :=
  "unknown element type '" ++ unknown.name ++ "'"

end Unknown

/-- The type with a given name or alias, in letters of either case. -/
def ofName (text : String) : Except Unknown ElementType :=
  match text.toLower with
  | "f32" | "fp32" => .ok .f32
  | "f16" | "fp16" => .ok .f16
  | "bf16" => .ok .bf16
  | "i8" | "int8" => .ok .i8
  | "i32" | "int32" => .ok .i32
  | name => .error ⟨name⟩

theorem ofName_name (type : ElementType) : (ofName type.name).toOption = some type := by
  cases type <;> decide +kernel

end ElementType

end KernelTuning
