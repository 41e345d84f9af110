/-!
# Options

The words of a command line are options.  An option with a value takes it from
the same word, behind an equals sign, or from the next word, which then must not
look like an option.  Only a lone dash does not.
-/

namespace KernelTuning.CommandLine

/-- What an option takes. -/
inductive OptionKind where
  /-- No value, and at most one occurrence. -/
  | flag
  /-- A value, and at most one occurrence. -/
  | single
  /-- A value in each of any number of occurrences. -/
  | repeated
  deriving DecidableEq

/-- The options of a command, by name. -/
abbrev OptionTable := List (String × OptionKind)

/-- The options that a command line consists of, in order; flags have no value. -/
structure Options where
  given : List (String × Option String) := []

namespace Options

/-- Whether an option occurs. -/
def has (options : Options) (name : String) : Bool :=
  options.given.any fun (given, _) => given == name

/-- The values of an option, in order. -/
def values (options : Options) (name : String) : List String :=
  options.given.filterMap fun (given, value) => if given = name then value else none

/-- The value of an option that occurs at most once. -/
def value? (options : Options) (name : String) : Option String :=
  (options.values name).head?

/-- The options with one more, unless it must not occur again. -/
def add? (options : Options) (kind : OptionKind) (name : String) (value : Option String) :
    Option Options :=
  if kind ≠ .repeated ∧ options.has name then none
  else some { given := options.given ++ [(name, value)] }

/-- Whether a word may be the value of the option before it. -/
def isValue (word : List Char) : Bool :=
  word == ['-'] || word.head? != some '-'

/-- Reads words as options.  Two dashes alone end the options, and nothing may
stand behind them. -/
def read? (table : OptionTable) (options : Options) : List String → Option Options
  | [] => some options
  | "--" :: rest => if rest.isEmpty then some options else none
  | word :: rest =>
      match word.toList with
      | '-' :: '-' :: body =>
          let (name, assigned) := body.span (· != '=')
          let name := String.ofList name
          match table.lookup name, assigned, rest with
          | some .flag, [], rest => do
              let options ← options.add? .flag name none
              read? table options rest
          | some .flag, _ :: _, _ => none
          | some kind, _ :: value, rest => do
              let options ← options.add? kind name (some (String.ofList value))
              read? table options rest
          | some kind, [], value :: rest =>
              if isValue value.toList then do
                let options ← options.add? kind name (some value)
                read? table options rest
              else none
          | _, _, _ => none
      | _ => none

/-- The value of an option as `decode` reads it, or a default when the option is
absent. -/
def valueOr? {α : Type}
    (options : Options) (name : String) (default : α) (decode : String → Option α) :
    Option α :=
  match options.value? name with
  | none => some default
  | some text => decode text

/-- The value of an option as `decode` reads it, if the option occurs. -/
def optional? {α : Type}
    (options : Options) (name : String) (decode : String → Option α) :
    Option (Option α) :=
  match options.value? name with
  | none => some none
  | some text => some <$> decode text

/-- The value of an option that has to occur. -/
def required? {α : Type}
    (options : Options) (name : String) (decode : String → Option α) : Option α :=
  options.value? name >>= decode

end Options

/-- The value of a nonempty run of digits. -/
def digits? (chars : List Char) : Option Nat :=
  if chars.isEmpty || !chars.all Char.isDigit then none
  else some (Nat.ofDigitChars 10 chars 0)

/-- A natural number below a bound; a plus sign may stand before it. -/
def natural? (bound : Nat) (text : String) : Option Nat := do
  let value ←
    match text.toList with
    | '+' :: rest => digits? rest
    | chars => digits? chars
  if value < bound then some value else none

/-- A signed 64-bit integer. -/
def integer? (text : String) : Option Int := do
  let value ←
    match text.toList with
    | '-' :: rest => (fun value => -(value : Int)) <$> digits? rest
    | '+' :: rest => (fun value => (value : Int)) <$> digits? rest
    | chars => (fun value => (value : Int)) <$> digits? chars
  if Int64.minValue.toInt ≤ value ∧ value ≤ Int64.maxValue.toInt then some value
  else none

def uint64? (text : String) : Option UInt64 :=
  UInt64.ofNat <$> natural? UInt64.size text

def int64? (text : String) : Option Int64 :=
  Int64.ofInt <$> integer? text

/-- A 32-bit word, read as an integer first, so that a zero may have a sign. -/
def uint32? (text : String) : Option UInt32 := do
  let value ← integer? text
  if 0 ≤ value ∧ value.toNat < UInt32.size then some (UInt32.ofNat value.toNat)
  else none

/-- A path, which is not empty. -/
def path? (text : String) : Option String :=
  if text.isEmpty then none else some text

end KernelTuning.CommandLine
