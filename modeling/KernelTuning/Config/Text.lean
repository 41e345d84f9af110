import KernelTuning.Config.Basic

/-!
# Configurations as text

A configuration is exchanged as a version, a colon and its knobs as decimal
numbers between commas: nine for a kernel built on matrix instructions, six for a
scalar kernel.  Leading zeros are read but never written.
-/

namespace KernelTuning.Config

/-- The version that every text starts with. -/
def version : List Char := ['v', '2']

/-- The number that stands for a flag. -/
def flagNumber (flag : Bool) : Nat :=
  if flag then 1 else 0

/-- The knobs as numbers, in the order in which they are written. -/
def numbers : Config → List Nat
  | .matrix knobs =>
      [knobs.mPerBlock.toNat, knobs.nPerBlock.toNat, knobs.kPerBlock.toNat,
        knobs.mPerWave.toNat, knobs.nPerWave.toNat, knobs.kPack.toNat,
        knobs.splitK.toNat, flagNumber knobs.forceUnroll, flagNumber knobs.bCopyMore]
  | .scalar knobs =>
      [knobs.blockSize.toNat, knobs.mPerBlock.toNat, knobs.nPerBlock.toNat,
        knobs.kPerBlock.toNat, knobs.mPerThread.toNat, knobs.nPerThread.toNat]

/-- The text of a configuration. -/
def encode (config : Config) : String :=
  String.ofList
    (version ++ ':' :: [','].intercalate (config.numbers.map (Nat.toDigits 10)))

/-- Why a text is no configuration. -/
inductive ParseError where
  | empty
  | missingVersion (text : String)
  | unsupportedVersion (version : String)
  | fieldCount (count : Nat)
  | malformedField (index : Nat) (field : String)
  | badFlag (index : Nat) (value : Nat)
  | zeroField (index : Nat)
  deriving DecidableEq, Repr

namespace ParseError

def message : ParseError → String
  | .empty => "perf config is empty"
  | .missingVersion text => "perf config '" ++ text ++ "' has no version prefix"
  | .unsupportedVersion version =>
      "unsupported perf config version '" ++ version ++ "'"
  | .fieldCount count =>
      s!"expected 9 (accel) or 6 (non-accel) fields, found {count}"
  | .malformedField index field =>
      s!"field {index} ('" ++ field ++ "') is not an unsigned integer"
  | .badFlag index value => s!"field {index} must be 0 or 1, found {value}"
  | .zeroField index => s!"field {index} must be positive"

end ParseError

/-- The value of a field: a nonempty run of digits below `2 ^ 32`. -/
def fieldValue? (field : List Char) : Option Nat :=
  if field.isEmpty || !field.all Char.isDigit then none
  else
    let value := Nat.ofDigitChars 10 field 0
    if value < UInt32.size then some value else none

/-- The values of the fields from the one at `index` on. -/
def fieldValues (index : Nat) : List (List Char) → Except ParseError (List Nat)
  | [] => .ok []
  | field :: fields =>
      match fieldValue? field with
      | none => .error (.malformedField index (String.ofList field))
      | some value => (value :: ·) <$> fieldValues (index + 1) fields

/-- Every value is positive. -/
def requirePositive (values : List Nat) : Except ParseError Unit :=
  match values.findIdx? (· == 0) with
  | some index => .error (.zeroField index)
  | none => .ok ()

/-- The flag that a field at `index` stands for. -/
def flagOf (index value : Nat) : Except ParseError Bool :=
  match value with
  | 0 => .ok false
  | 1 => .ok true
  | value => .error (.badFlag index value)

/-- The configuration with the given knobs, told apart by their number. -/
def ofNumbers : List Nat → Except ParseError Config
  | [mPerBlock, nPerBlock, kPerBlock, mPerWave, nPerWave, kPack, splitK,
      forceUnroll, bCopyMore] => do
      requirePositive
        [mPerBlock, nPerBlock, kPerBlock, mPerWave, nPerWave, kPack, splitK]
      let forceUnroll ← flagOf 7 forceUnroll
      let bCopyMore ← flagOf 8 bCopyMore
      return .matrix
        { mPerBlock := .ofNat mPerBlock
          nPerBlock := .ofNat nPerBlock
          kPerBlock := .ofNat kPerBlock
          mPerWave := .ofNat mPerWave
          nPerWave := .ofNat nPerWave
          kPack := .ofNat kPack
          splitK := .ofNat splitK
          forceUnroll := forceUnroll
          bCopyMore := bCopyMore }
  | [blockSize, mPerBlock, nPerBlock, kPerBlock, mPerThread, nPerThread] => do
      requirePositive
        [blockSize, mPerBlock, nPerBlock, kPerBlock, mPerThread, nPerThread]
      return .scalar
        { blockSize := .ofNat blockSize
          mPerBlock := .ofNat mPerBlock
          nPerBlock := .ofNat nPerBlock
          kPerBlock := .ofNat kPerBlock
          mPerThread := .ofNat mPerThread
          nPerThread := .ofNat nPerThread }
  | values => .error (.fieldCount values.length)

/-- The configuration that a sequence of characters stands for. -/
def decodeChars (chars : List Char) : Except ParseError Config :=
  if chars.isEmpty then .error .empty
  else
    match chars.span (· != ':') with
    | (_, []) => .error (.missingVersion (String.ofList chars))
    | (start, _ :: body) =>
        if start ≠ version then .error (.unsupportedVersion (String.ofList start))
        else do
          let values ← fieldValues 0 (body.splitOn ',')
          ofNumbers values

/-- The configuration that a text stands for. -/
def decode (text : String) : Except ParseError Config :=
  decodeChars text.toList

end KernelTuning.Config
