import KernelTuning.Json.Token
import KernelTuning.Proofs.CanonicalText
import KernelTuning.Proofs.NearestNumbers
import Mathlib.Data.List.Basic

/-!
# Texts of numbers

A number's text is a sign, the digits before the point, those behind it and an exponent, of
which only the second has to be there.  The reader finds these parts again.  The decimal
that the parts spell is the one that was laid out, so a written number comes back if its
digits are read as the number nearest to that decimal.
-/

namespace KernelTuning

/-! ## Runs of characters -/

/-- A text on which a run of characters of one class ends at once. -/
def Halts (test : Char → Bool) (rest : List Char) : Prop :=
  ∀ first, rest.head? = some first → test first = false

theorem halts_nil (test : Char → Bool) : Halts test [] := by
  intro first absent
  simp at absent

theorem halts_cons {test : Char → Bool} {first : Char} (fails : test first = false)
    (rest : List Char) : Halts test (first :: rest) := by
  intro head same
  simp only [List.head?_cons, Option.some.injEq] at same
  exact same ▸ fails

theorem Halts.takeWhile_append {test : Char → Bool} {run rest : List Char}
    (halts : Halts test rest) (passes : ∀ char ∈ run, test char = true) :
    (run ++ rest).takeWhile test = run := by
  rw [List.takeWhile_append_of_pos passes]
  cases rest with
  | nil => simp
  | cons first rest =>
      simp [halts first rfl]

theorem Halts.dropWhile_append {test : Char → Bool} {run rest : List Char}
    (halts : Halts test rest) (passes : ∀ char ∈ run, test char = true) :
    (run ++ rest).dropWhile test = rest := by
  rw [List.dropWhile_append_of_pos passes]
  cases rest with
  | nil => simp
  | cons first rest =>
      simp [halts first rfl]

namespace Json

/-! ## Literals -/

/-- The parts of a number's text. -/
structure Literal where
  negative : Bool
  whole : List Char
  fraction : List Char
  exponent : Option Int

namespace Literal

/-- The sign of a number; a positive one has none. -/
def signText (negative : Bool) : List Char :=
  if negative then ['-'] else []

/-- The digits behind the point, which stands only before some. -/
def fractionText : List Char → List Char
  | [] => []
  | digit :: rest => '.' :: digit :: rest

/-- The exponent with its sign. -/
def exponentText : Option Int → List Char
  | none => []
  | some exponent =>
      'e' :: (if exponent < 0 then '-' else '+') :: Nat.toDigits 10 exponent.natAbs

def text (literal : Literal) : List Char :=
  signText literal.negative
    ++ (literal.whole ++ (fractionText literal.fraction ++ exponentText literal.exponent))

/-- The parts are digits, and there is no superfluous leading zero. -/
structure WellFormed (literal : Literal) : Prop where
  nonempty : literal.whole ≠ []
  wholeDigits : ∀ digit ∈ literal.whole, digit.isDigit = true
  fractionDigits : ∀ digit ∈ literal.fraction, digit.isDigit = true
  noSpareZero : ¬Config.HasSpareZero literal.whole

/-! ## Reading the parts -/

theorem digitRun?_append {digits rest : List Char} (nonempty : digits ≠ [])
    (allDigits : ∀ digit ∈ digits, digit.isDigit = true) (halts : Halts Char.isDigit rest) :
    digitRun? (digits ++ rest) = some (digits, rest) := by
  unfold digitRun?
  rw [List.span_eq_takeWhile_dropWhile, halts.takeWhile_append allDigits,
    halts.dropWhile_append allDigits]
  cases digits with
  | nil => exact absurd rfl nonempty
  | cons digit digits => rfl

private theorem digitRun?_toDigits (value : Nat) :
    digitRun? (Nat.toDigits 10 value) = some (Nat.toDigits 10 value, []) := by
  have run := digitRun?_append Nat.toDigits_ne_nil
    (List.all_eq_true.mp (Config.isDigit_toDigits value)) (halts_nil Char.isDigit)
  rwa [List.append_nil] at run

private theorem exponent?_exponentText (exponent : Option Int) :
    exponent? (exponentText exponent) = some exponent := by
  cases exponent with
  | none => rfl
  | some exponent =>
      have value : signedExponent? ((if exponent < 0 then '-' else '+')
          :: Nat.toDigits 10 exponent.natAbs) = some exponent := by
        split
        · simp only [signedExponent?, signedExponent?.magnitude?, digitRun?_toDigits,
            Nat.ofDigitChars_ten_toDigits, Option.some.injEq]
          omega
        · simp only [signedExponent?, signedExponent?.magnitude?, digitRun?_toDigits,
            Nat.ofDigitChars_ten_toDigits, Option.some.injEq]
          omega
      simp [exponentText, exponent?, value]

theorem halts_exponentText (exponent : Option Int) :
    Halts Char.isDigit (exponentText exponent) := by
  cases exponent with
  | none => exact halts_nil _
  | some exponent => exact halts_cons (by decide) _

private theorem fraction?_append {fraction : List Char}
    (allDigits : ∀ digit ∈ fraction, digit.isDigit = true) (exponent : Option Int) :
    fraction? (fractionText fraction ++ exponentText exponent) =
      some (fraction, exponentText exponent) := by
  cases fraction with
  | nil =>
      cases exponent with
      | none => rfl
      | some exponent => rfl
  | cons digit rest =>
      exact digitRun?_append (List.cons_ne_nil _ _) allDigits (halts_exponentText exponent)

private theorem halts_fractionText (fraction : List Char) (exponent : Option Int) :
    Halts Char.isDigit (fractionText fraction ++ exponentText exponent) := by
  cases fraction with
  | nil => exact halts_exponentText exponent
  | cons digit rest => exact halts_cons (by decide) _

/-- What the reader makes of the text behind the sign. -/
def unsigned? (negative : Bool) (unsigned : List Char) : Option Json := do
  let (whole, afterWhole) ← digitRun? unsigned
  if whole.head? = some '0' ∧ 1 < whole.length then none
  let (fraction, afterFraction) ← fraction? afterWhole
  let exponent ← exponent? afterFraction
  some (ofParts negative whole fraction exponent)

private theorem number?_signText {unsigned : List Char} (noMinus : unsigned.head? ≠ some '-')
    (negative : Bool) : number? (signText negative ++ unsigned) = unsigned? negative unsigned := by
  cases negative with
  | true => rfl
  | false =>
      unfold number?
      split
      rename_i sign found split
      split at split
      · rename_i rest same
        exact absurd (congrArg List.head? same) noMinus
      · cases split
        rfl

/-- The reader finds the parts of a number again. -/
theorem number?_text {literal : Literal} (wellFormed : literal.WellFormed) :
    number? literal.text =
      some (ofParts literal.negative literal.whole literal.fraction literal.exponent) := by
  have run := digitRun?_append wellFormed.nonempty wellFormed.wholeDigits
    (halts_fractionText literal.fraction literal.exponent)
  have noZero : ¬(literal.whole.head? = some '0' ∧ 1 < literal.whole.length) := by
    rintro ⟨zero, long⟩
    obtain ⟨rest, same⟩ := List.head?_eq_some_iff.mp zero
    refine wellFormed.noSpareZero ⟨rest, ?_, same⟩
    rintro rfl
    simp [same] at long
  have noMinus : (literal.whole ++ (fractionText literal.fraction
      ++ exponentText literal.exponent)).head? ≠ some '-' := by
    rw [List.head?_append_of_ne_nil _ wellFormed.nonempty]
    intro minus
    exact absurd (wellFormed.wholeDigits '-' (List.mem_of_head? minus)) (by decide)
  rw [text, number?_signText noMinus, unsigned?]
  simp only [Option.bind_eq_bind, run, Option.bind_some, if_neg noZero,
    fraction?_append wellFormed.fractionDigits, exponent?_exponentText]

/-! ## Characters -/

theorem isNumeric_of_isDigit {char : Char} (digit : char.isDigit = true) :
    Token.isNumeric char = true := by
  simp [Token.isNumeric, digit]

private theorem isNumeric_exponentText (exponent : Option Int) :
    ∀ char ∈ exponentText exponent, Token.isNumeric char = true := by
  cases exponent with
  | none => simp [exponentText]
  | some exponent =>
      intro char member
      simp only [exponentText, List.mem_cons] at member
      rcases member with rfl | rfl | digit
      · rfl
      · split <;> rfl
      · exact isNumeric_of_isDigit (List.all_eq_true.mp (Config.isDigit_toDigits _) char digit)

private theorem isNumeric_fractionText {fraction : List Char}
    (allDigits : ∀ digit ∈ fraction, digit.isDigit = true) :
    ∀ char ∈ fractionText fraction, Token.isNumeric char = true := by
  cases fraction with
  | nil => simp [fractionText]
  | cons digit rest =>
      intro char member
      rcases List.mem_cons.mp member with rfl | digit
      · rfl
      · exact isNumeric_of_isDigit (allDigits char digit)

/-- A number's text consists of the characters of numbers. -/
theorem isNumeric_text {literal : Literal} (wellFormed : literal.WellFormed) :
    ∀ char ∈ literal.text, Token.isNumeric char = true := by
  intro char member
  simp only [text, List.mem_append] at member
  rcases member with sign | whole | fraction | exponent
  · unfold signText at sign
    split at sign
    · rw [List.mem_singleton.mp sign]
      rfl
    · simp at sign
  · exact isNumeric_of_isDigit (wellFormed.wholeDigits char whole)
  · exact isNumeric_fractionText wellFormed.fractionDigits char fraction
  · exact isNumeric_exponentText literal.exponent char exponent

/-- A number's text starts with its sign or a digit. -/
theorem exists_text_eq_cons {literal : Literal} (wellFormed : literal.WellFormed) :
    ∃ first rest, literal.text = first :: rest ∧ (first = '-' ∨ first.isDigit = true) := by
  unfold text signText
  split
  · exact ⟨'-', _, rfl, .inl rfl⟩
  · obtain ⟨first, rest, same⟩ := List.exists_cons_of_ne_nil wellFormed.nonempty
    refine ⟨first, rest ++ (fractionText literal.fraction ++ exponentText literal.exponent), ?_, ?_⟩
    · simp [same]
    · exact .inr (wellFormed.wholeDigits first (by simp [same]))

/-! ## Integers -/

/-- The parts of an integer's text. -/
def ofInteger (value : Int) : Literal :=
  ⟨decide (value < 0), Nat.toDigits 10 value.natAbs, [], none⟩

theorem wellFormed_ofInteger (value : Int) : (ofInteger value).WellFormed where
  nonempty := Nat.toDigits_ne_nil
  wholeDigits := List.all_eq_true.mp (Config.isDigit_toDigits _)
  fractionDigits := by simp [ofInteger]
  noSpareZero := Config.not_hasSpareZero_toDigits _

theorem text_ofInteger (value : Int) : (ofInteger value).text = writeInteger value := by
  simp [ofInteger, text, writeInteger, signText, fractionText, exponentText]

/-! ## Decimals -/

/-- The decimal that the parts spell. -/
def decimal (literal : Literal) : Decimal :=
  ⟨Nat.ofDigitChars 10 (literal.whole ++ literal.fraction) 0,
    literal.exponent.getD 0 - literal.fraction.length⟩

/-- The parts of a decimal's text. -/
def ofDecimal (window : PositionalWindow) (negative : Bool) (decimal : Decimal) : Literal :=
  let digits := decimal.digits
  let leading := decimal.leadingExponent
  if window.lowest ≤ leading ∧ leading ≤ window.highest then
    if 0 ≤ decimal.exponent then
      ⟨negative, digits ++ List.replicate decimal.exponent.toNat '0', ['0'], none⟩
    else if 0 ≤ leading then
      ⟨negative, digits.take (leading + 1).toNat, digits.drop (leading + 1).toNat, none⟩
    else
      ⟨negative, ['0'], List.replicate (-leading - 1).toNat '0' ++ digits, none⟩
  else ⟨negative, digits.take 1, digits.drop 1, some leading⟩

/-- A literal whose unsigned text is `chars` and which spells a decimal, but no integer. -/
structure Spells (literal : Literal) (chars : List Char) (decimal : Decimal) : Prop where
  wellFormed : literal.WellFormed
  text : literal.text = signText literal.negative ++ chars
  fractional : literal.fraction ≠ [] ∨ literal.exponent ≠ none
  nearest : literal.decimal.nearestCode = decimal.nearestCode

private theorem hasSpareZero_append {start : List Char} (spare : Config.HasSpareZero start)
    (rest : List Char) : Config.HasSpareZero (start ++ rest) := by
  obtain ⟨others, nonempty, rfl⟩ := spare
  exact ⟨others ++ rest, List.append_ne_nil_of_left_ne_nil nonempty rest, rfl⟩

theorem not_hasSpareZero_take (number count : Nat) :
    ¬Config.HasSpareZero ((Nat.toDigits 10 number).take count) := by
  intro spare
  have whole := hasSpareZero_append spare ((Nat.toDigits 10 number).drop count)
  rw [List.take_append_drop] at whole
  exact Config.not_hasSpareZero_toDigits number whole

theorem isDigit_zero {char : Char} {count : Nat} (member : char ∈ List.replicate count '0') :
    char.isDigit = true := by
  rw [List.eq_of_mem_replicate member]
  rfl

theorem isDigit_digits {decimal : Decimal} {char : Char} (member : char ∈ decimal.digits) :
    char.isDigit = true :=
  List.all_eq_true.mp (Config.isDigit_toDigits _) char member

theorem fractionText_of_ne_nil {fraction : List Char} (nonempty : fraction ≠ []) :
    fractionText fraction = '.' :: fraction := by
  cases fraction with
  | nil => exact absurd rfl nonempty
  | cons digit rest => rfl

/-- Decimals are equal as soon as significands and exponents are. -/
theorem decimal_eq {literal : Literal} {decimal : Decimal}
    (significand : Nat.ofDigitChars 10 (literal.whole ++ literal.fraction) 0 = decimal.significand)
    (exponent : literal.exponent.getD 0 - literal.fraction.length = decimal.exponent) :
    literal.decimal = decimal := by
  rw [Literal.decimal, significand, exponent]

variable {decimal : Decimal} (negative : Bool)

/-- A decimal without a fraction gets one. -/
private theorem spells_integral (normal : decimal.significand = 0 → decimal.exponent = 0)
    (integral : 0 ≤ decimal.exponent) :
    Spells ⟨negative, decimal.digits ++ List.replicate decimal.exponent.toNat '0', ['0'], none⟩
      (decimal.digits ++ List.replicate decimal.exponent.toNat '0' ++ ['.', '0']) decimal where
  wellFormed :=
    { nonempty := List.append_ne_nil_of_left_ne_nil Nat.toDigits_ne_nil _
      wholeDigits := by
        intro char member
        rcases List.mem_append.mp member with digit | zero
        · exact isDigit_digits digit
        · exact isDigit_zero zero
      fractionDigits := by simp
      noSpareZero := by
        rcases Nat.eq_zero_or_pos decimal.significand with zero | positive
        · have exponent := normal zero
          rw [Decimal.digits, zero, exponent]
          rintro ⟨rest, nonempty, same⟩
          exact nonempty (List.cons.inj same).2.symm
        · rw [Decimal.digits, ← Decimal.toDigits_mul_tenPower positive]
          exact Config.not_hasSpareZero_toDigits _ }
  text := by simp [Literal.text, fractionText, exponentText]
  fractional := .inl (List.cons_ne_nil _ _)
  nearest := by
    -- The zero behind the point is one more place than the exponent asks for.
    have padded := Decimal.nearestCode_pad decimal.significand decimal.exponent
      (decimal.exponent.toNat + 1)
    rw [← padded]
    congr 1
    apply decimal_eq
    · rw [List.append_assoc, Nat.ofDigitChars_append, Decimal.digits,
        Nat.ofDigitChars_ten_toDigits, ← List.replicate_one, List.replicate_append_replicate,
        Nat.ofDigitChars_replicate_zero, Nat.mul_comm]
    · simp only [Option.getD_none, List.length_singleton]
      omega

/-- The point stands between two digits. -/
private theorem spells_pointed (broken : decimal.exponent < 0)
    (large : 0 ≤ decimal.leadingExponent) :
    Spells
      ⟨negative, decimal.digits.take (decimal.leadingExponent + 1).toNat,
        decimal.digits.drop (decimal.leadingExponent + 1).toNat, none⟩
      (decimal.digits.take (decimal.leadingExponent + 1).toNat ++
        '.' :: decimal.digits.drop (decimal.leadingExponent + 1).toNat)
      decimal := by
  obtain ⟨count, whole⟩ : ∃ count : Nat, (decimal.leadingExponent + 1).toNat = count := ⟨_, rfl⟩
  have places : (count : Int) = decimal.exponent + decimal.digits.length := by
    unfold Decimal.leadingExponent at whole large
    omega
  have positive : 0 < count := by omega
  have fraction : (decimal.digits.drop count) ≠ [] := by
    rw [← List.length_pos_iff, List.length_drop]
    omega
  rw [whole]
  exact
    { wellFormed :=
        { nonempty := by
            rw [← List.length_pos_iff, List.length_take]
            exact Nat.lt_min.mpr ⟨positive, Nat.length_toDigits_pos⟩
          wholeDigits := fun _ member => isDigit_digits (List.mem_of_mem_take member)
          fractionDigits := fun _ member => isDigit_digits (List.mem_of_mem_drop member)
          noSpareZero := not_hasSpareZero_take _ _ }
      text := by simp [Literal.text, fractionText_of_ne_nil fraction, exponentText]
      fractional := .inl fraction
      nearest := by
        congr 1
        apply decimal_eq
        · rw [List.take_append_drop, Decimal.digits, Nat.ofDigitChars_ten_toDigits]
        · simp only [Option.getD_none, List.length_drop]
          omega }

/-- Zeros stand in front of the digits. -/
private theorem spells_small (small : decimal.leadingExponent < 0) :
    Spells
      ⟨negative, ['0'], List.replicate (-decimal.leadingExponent - 1).toNat '0' ++ decimal.digits,
        none⟩
      ('0' :: '.' :: List.replicate (-decimal.leadingExponent - 1).toNat '0' ++ decimal.digits)
      decimal := by
  have fraction : List.replicate (-decimal.leadingExponent - 1).toNat '0' ++ decimal.digits ≠ [] :=
    List.append_ne_nil_of_right_ne_nil _ Nat.toDigits_ne_nil
  exact
    { wellFormed :=
        { nonempty := List.cons_ne_nil _ _
          wholeDigits := by simp
          fractionDigits := by
            intro char member
            rcases List.mem_append.mp member with zero | digit
            · exact isDigit_zero zero
            · exact isDigit_digits digit
          noSpareZero := by
            rintro ⟨rest, nonempty, same⟩
            exact nonempty (List.cons.inj same).2.symm }
      text := by
        rw [Literal.text, fractionText_of_ne_nil fraction]
        simp [exponentText]
      fractional := .inl fraction
      nearest := by
        congr 1
        apply decimal_eq
        · rw [List.singleton_append, ← List.cons_append, ← List.replicate_succ,
            Nat.ofDigitChars_append, Nat.ofDigitChars_replicate_zero, Nat.mul_zero, Decimal.digits,
            Nat.ofDigitChars_ten_toDigits]
        · simp only [Option.getD_none, List.length_append, List.length_replicate]
          unfold Decimal.leadingExponent at small ⊢
          omega }

/-- One digit stands before the point, and an exponent follows. -/
private theorem spells_scientific :
    Spells
      ⟨negative, decimal.digits.take 1, decimal.digits.drop 1, some decimal.leadingExponent⟩
      decimal.scientific decimal := by
  obtain ⟨first, rest, split⟩ : ∃ first rest, decimal.digits = first :: rest :=
    List.exists_cons_of_ne_nil Nat.toDigits_ne_nil
  exact
    { wellFormed :=
        { nonempty := by simp [split]
          wholeDigits := fun _ member => isDigit_digits (List.mem_of_mem_take member)
          fractionDigits := fun _ member => isDigit_digits (List.mem_of_mem_drop member)
          noSpareZero := not_hasSpareZero_take _ _ }
      text := by
        cases rest with
        | nil => simp [Literal.text, Decimal.scientific, split, fractionText, exponentText]
        | cons second rest =>
            simp [Literal.text, Decimal.scientific, split, fractionText, exponentText]
      fractional := .inr (Option.some_ne_none _)
      nearest := by
        congr 1
        apply decimal_eq
        · rw [List.take_append_drop, Decimal.digits, Nat.ofDigitChars_ten_toDigits]
        · simp only [Option.getD_some, List.length_drop, Decimal.leadingExponent, split,
            List.length_cons]
          omega }

/-- The parts of a decimal's text spell the decimal. -/
theorem spells_ofDecimal (window : PositionalWindow)
    (normal : decimal.significand = 0 → decimal.exponent = 0) :
    Spells (ofDecimal window negative decimal) (decimal.layout window) decimal := by
  simp only [ofDecimal, Decimal.layout, Decimal.positional]
  split
  · split
    · rename_i integral
      exact spells_integral negative normal integral
    · rename_i broken
      split
      · rename_i large
        exact spells_pointed negative (Int.not_le.mp broken) large
      · rename_i small
        exact spells_small negative (Int.not_le.mp small)
  · exact spells_scientific negative

theorem negative_ofDecimal (window : PositionalWindow) (decimal : Decimal) :
    (ofDecimal window negative decimal).negative = negative := by
  simp only [ofDecimal]
  split
  · split
    · rfl
    · split <;> rfl
  · rfl

/-- The digits are read as the number nearest to the decimal that they spell. -/
def IsReadRounded (literal : Literal) : Prop :=
  Decimal.toBinary64 literal.negative
      (Decimal.ofDigits literal.whole literal.fraction (literal.exponent.getD 0)) =
    .ofCode literal.negative literal.decimal.nearestCode

instance (literal : Literal) : Decidable literal.IsReadRounded :=
  inferInstanceAs (Decidable (_ = _))

/-- Digits that fit a 64-bit word altogether are read as the decimal that they spell. -/
private theorem ofDigits_eq_decimal {literal : Literal}
    (fits : literal.decimal.significand < UInt64.size) :
    Decimal.ofDigits literal.whole literal.fraction (literal.exponent.getD 0) =
      literal.decimal := by
  have together : Nat.ofDigitChars 10 (literal.whole ++ literal.fraction) 0 < UInt64.size := fits
  rw [Nat.ofDigitChars_append] at together
  have whole := Decimal.collect_eq_of_lt ((Decimal.le_ofDigitChars _ _).trans_lt together)
  have fraction := Decimal.collect_eq_of_lt together
  simp [Decimal.ofDigits, whole, fraction, Literal.decimal, Nat.ofDigitChars_append]

/-- A number with at most 53 bits of digits and at most 22 places is read correctly
rounded. -/
theorem isReadRounded_of_short {literal : Literal}
    (word : literal.decimal.significand ≤ 2 ^ 53) (lower : -22 ≤ literal.decimal.exponent)
    (upper : literal.decimal.exponent ≤ 22) : literal.IsReadRounded := by
  rw [IsReadRounded, ofDigits_eq_decimal (word.trans_lt (by decide)), Decimal.toBinary64,
    Decimal.code_scaled_of_short word lower upper]

end Literal

/-! ## Numbers -/

/-- Integers that a 64-bit word holds come back. -/
theorem number?_writeInteger {value : Int} (lower : Int64.minValue.toInt ≤ value)
    (upper : value < UInt64.size) : number? (writeInteger value) = some (.integer value) := by
  have word : wordInteger? (decide (value < 0)) value.natAbs = some value := by
    rw [wordInteger?]
    by_cases negative : value < 0
    · have magnitude : -(value.natAbs : Int) = value := by omega
      simp only [negative, decide_true, if_true, magnitude, lower, and_self]
    · have magnitude : (value.natAbs : Int) = value := by omega
      have small : value.natAbs < UInt64.size := by omega
      simp only [negative, decide_false, Bool.false_eq_true, if_false, small, if_true, magnitude]
  rw [← Literal.text_ofInteger, Literal.number?_text (Literal.wellFormed_ofInteger value)]
  simp [Literal.ofInteger, ofParts, Nat.ofDigitChars_ten_toDigits, word]

/-- The parts of a floating number's text. -/
def literalOf (value : Binary64) : Literal :=
  .ofDecimal window value.negative (Decimal.shortest value.code)

/-- The text of a floating number is read correctly rounded. -/
def ReadsRounded (value : Binary64) : Prop :=
  (literalOf value).IsReadRounded

instance (value : Binary64) : Decidable (ReadsRounded value) :=
  inferInstanceAs (Decidable (literalOf value).IsReadRounded)

/-- The text of a number has at most 53 bits of digits and at most 22 places. -/
structure Short (value : Binary64) : Prop where
  word : (literalOf value).decimal.significand ≤ 2 ^ 53
  lower : -22 ≤ (literalOf value).decimal.exponent
  upper : (literalOf value).decimal.exponent ≤ 22

theorem Short.readsRounded {value : Binary64} (short : Short value) : ReadsRounded value :=
  Literal.isReadRounded_of_short short.word short.lower short.upper

-- Without the bounds it may be read as a neighbour: a word above `2 ^ 53` is rounded first.
example : ¬ReadsRounded ⟨0x4058c96bf1977c95⟩ := by decide +kernel

variable {value : Binary64}

theorem code_lt_of_isFinite (finite : value.isFinite = true) :
    value.code < Binary64.infinityCode := by
  simpa [Binary64.isFinite] using finite

theorem spells_literalOf (finite : value.isFinite = true) :
    (literalOf value).Spells ((Decimal.shortest value.code).layout window)
      (Decimal.shortest value.code) := by
  apply Literal.spells_ofDecimal
  intro zero
  have determined := Decimal.nearestCode_shortest (code_lt_of_isFinite finite)
  have codeZero : value.code = 0 := by
    rw [← determined, Decimal.nearestCode, if_pos zero]
  rw [codeZero]
  rfl

theorem text_literalOf (finite : value.isFinite = true) :
    (literalOf value).text = writeFloat value := by
  rw [(spells_literalOf finite).text, literalOf, Literal.negative_ofDecimal, writeFloat,
    if_pos finite]
  rfl

/-- A finite number comes back if its text is read correctly rounded. -/
theorem number?_writeFloat (finite : value.isFinite = true) (rounded : ReadsRounded value) :
    number? (writeFloat value) = some (.float value) := by
  have spells := spells_literalOf finite
  have sign : (literalOf value).negative = value.negative := Literal.negative_ofDecimal ..
  have noInteger : ((literalOf value).fraction.isEmpty && (literalOf value).exponent.isNone) =
      false := by
    rcases spells.fractional with fraction | exponent
    · simp [fraction]
    · simp [Option.isSome_iff_ne_none.mpr exponent]
  have same : Decimal.toBinary64 (literalOf value).negative
      (Decimal.ofDigits (literalOf value).whole (literalOf value).fraction
        ((literalOf value).exponent.getD 0)) = value := by
    have nearest : Decimal.toBinary64 _ _ = Binary64.ofCode _ _ := rounded
    rw [nearest, sign, spells.nearest, Decimal.nearestCode_shortest (code_lt_of_isFinite finite),
      Binary64.ofCode_code]
  rw [← text_literalOf finite, Literal.number?_text spells.wellFormed, ofParts, noInteger]
  simp [same]

end Json

end KernelTuning
