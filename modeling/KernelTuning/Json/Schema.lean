import KernelTuning.Json.Basic

/-!
# Decoding JSON

Decoders are partial functions on values.  A record may be written as an object,
whose unknown members are ignored, or as the array of its fields in order, whose
tail may be missing where a default exists.  A choice is written as the name of
the alternative; one that carries a value is an object with that single member.
-/

namespace KernelTuning.Json

def boolean? : Json → Option Bool
  | .boolean value => some value
  | _ => none

def string? : Json → Option String
  | .string value => some value
  | _ => none

/-- A natural number below a bound. -/
def natural? (bound : Nat) : Json → Option Nat
  | .integer value =>
      if 0 ≤ value ∧ value.toNat < bound then some value.toNat else none
  | _ => none

def uint32? (json : Json) : Option UInt32 :=
  UInt32.ofNat <$> json.natural? UInt32.size

def uint64? (json : Json) : Option UInt64 :=
  UInt64.ofNat <$> json.natural? UInt64.size

def int64? : Json → Option Int64
  | .integer value =>
      if Int64.minValue.toInt ≤ value ∧ value ≤ Int64.maxValue.toInt then
        some (Int64.ofInt value)
      else none
  | _ => none

/-- A finite number; an integer is rounded. -/
def binary64? : Json → Option Binary64
  | .float value => if value.isFinite then some value else none
  | .integer value =>
      let rounded := Binary64.ofInt value
      if rounded.isFinite then some rounded else none
  | _ => none

/-- An array of values that one decoder reads. -/
def list? {α : Type} (decode : Json → Option α) : Json → Option (List α)
  | .array items => items.mapM decode
  | _ => none

/-- A value for which `null` stands when it is absent. -/
def nullable? {α : Type} (decode : Json → Option α) : Json → Option (Option α)
  | .null => some none
  | json => some <$> decode json

/-- A choice among named alternatives.  Instead of a string, the name may be the
key of an object's only member, whose value is `null`. -/
def choice? {α : Type} (alternatives : List (String × α)) : Json → Option α
  | .string name => alternatives.lookup name
  | .object [(name, .null)] => alternatives.lookup name
  | _ => none

/-- The members of a record that are present. -/
structure Record where
  members : List (String × Json)

/-- Reads a record with the given field names. -/
def record? (names : List String) : Json → Option Record
  | .object members =>
      let known := members.filter fun member => names.contains member.1
      if (known.map Prod.fst).Nodup then some ⟨known⟩ else none
  | .array items =>
      if items.length ≤ names.length then some ⟨names.zip items⟩ else none
  | _ => none

namespace Record

/-- A field that has to be present. -/
def required {α : Type} (record : Record) (name : String) (decode : Json → Option α) :
    Option α :=
  record.members.lookup name >>= decode

/-- A field with a default. -/
def optional {α : Type}
    (record : Record) (name : String) (default : α) (decode : Json → Option α) :
    Option α :=
  match record.members.lookup name with
  | none => some default
  | some value => decode value

end Record

end KernelTuning.Json
