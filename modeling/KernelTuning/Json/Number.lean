import KernelTuning.Decimal.Layout
import KernelTuning.Decimal.Reading
import KernelTuning.Decimal.Shortest
import KernelTuning.Json.Basic

/-!
# JSON numbers

A number with neither a fraction nor an exponent is an integer if a 64-bit word,
signed for a negative number, holds it; every other number is read as a
double-precision number.  So is `-0`, the negative zero: as an integer it would
lose its sign.
-/

namespace KernelTuning.Json

/-- Floating numbers are written positionally from `0.00001` up to, but not
including, `10 ^ 16`. -/
def window : PositionalWindow := ⟨-5, 15⟩

/-- The text of an integer. -/
def writeInteger (value : Int) : List Char :=
  (if value < 0 then ['-'] else []) ++ Nat.toDigits 10 value.natAbs

/-- The text of a floating number; one that is not finite has none and becomes
`null`. -/
def writeFloat (value : Binary64) : List Char :=
  if value.isFinite then
    (if value.negative then ['-'] else [])
      ++ (Decimal.shortest value.code).layout window
  else "null".toList

/-- A nonempty run of digits at the start of a text, and the rest. -/
def digitRun? (chars : List Char) : Option (List Char × List Char) :=
  match chars.span Char.isDigit with
  | ([], _) => none
  | run => some run

/-- The digits of a fraction, none if there is no point. -/
def fraction? : List Char → Option (List Char × List Char)
  | '.' :: rest => digitRun? rest
  | chars => some ([], chars)

/-- The exponent after a sign has been looked for. -/
def signedExponent? : List Char → Option Int
  | '-' :: rest => magnitude? rest fun value => -(value : Int)
  | '+' :: rest => magnitude? rest fun value => (value : Int)
  | chars => magnitude? chars fun value => (value : Int)
where
  magnitude? (chars : List Char) (signed : Nat → Int) : Option Int :=
    match digitRun? chars with
    | some (digits, []) => some (signed (Nat.ofDigitChars 10 digits 0))
    | _ => none

/-- The exponent that ends a number, `none` standing for an absent one. -/
def exponent? : List Char → Option (Option Int)
  | [] => some none
  | letter :: rest =>
      if letter = 'e' ∨ letter = 'E' then some <$> signedExponent? rest else none

/-- The integer of a sign and a magnitude, if a 64-bit word holds it and it has no
sign to lose. -/
def wordInteger? (negative : Bool) (magnitude : Nat) : Option Int :=
  if negative then
    let value := -(magnitude : Int)
    if value < 0 ∧ Int64.minValue.toInt ≤ value then some value else none
  else if magnitude < UInt64.size then some magnitude
  else none

/-- The number written by the digits of its parts. -/
def ofParts
    (negative : Bool) (whole fraction : List Char) (exponent : Option Int) : Json :=
  let integer :=
    if fraction.isEmpty && exponent.isNone then
      wordInteger? negative (Nat.ofDigitChars 10 whole 0)
    else none
  match integer with
  | some value => .integer value
  | none =>
      .float (Decimal.toBinary64 negative
        (Decimal.ofDigits whole fraction (exponent.getD 0)))

/-- A whole literal read as a number.  There is no superfluous leading zero, and
a point has digits on both sides. -/
def number? (literal : List Char) : Option Json := do
  let (negative, unsigned) :=
    match literal with
    | '-' :: rest => (true, rest)
    | _ => (false, literal)
  let (whole, afterWhole) ← digitRun? unsigned
  if whole.head? = some '0' ∧ 1 < whole.length then none
  let (fraction, afterFraction) ← fraction? afterWhole
  let exponent ← exponent? afterFraction
  some (ofParts negative whole fraction exponent)

end KernelTuning.Json
