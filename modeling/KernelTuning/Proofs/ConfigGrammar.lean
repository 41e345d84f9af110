import KernelTuning.Proofs.ConfigText

/-!
# The grammar of configurations

Which texts stand for configurations is said here without the reader: as a list of
fields, each of which is a numeral, and as what the numbers of these fields have to
satisfy.  The reader accepts exactly these texts, and of every other text it reports
the first thing that is wrong.
-/

namespace KernelTuning.Config

/-! ## Numerals -/

/-- The number that a field stands for. -/
def fieldNumber (field : List Char) : Nat :=
  Nat.ofDigitChars 10 field 0

/-- A nonempty run of digits whose number fits 32 bits. -/
structure IsNumeral (field : List Char) : Prop where
  nonempty : field ≠ []
  digits : ∀ char, char ∈ field → char.isDigit = true
  small : fieldNumber field < UInt32.size

theorem fieldValue?_eq_some_iff {field : List Char} {value : Nat} :
    fieldValue? field = some value ↔ IsNumeral field ∧ fieldNumber field = value := by
  unfold fieldValue?
  constructor
  · intro read
    split at read
    · cases read
    · rename_i wellFormed
      simp only [Option.ite_none_right_eq_some, Option.some.injEq] at read
      obtain ⟨small, rfl⟩ := read
      rw [Bool.or_eq_true, not_or] at wellFormed
      refine ⟨⟨?_, ?_, small⟩, rfl⟩
      · simpa using wellFormed.1
      · simpa using wellFormed.2
  · rintro ⟨⟨nonempty, digits, small⟩, rfl⟩
    have allDigits : field.all Char.isDigit = true := List.all_eq_true.mpr digits
    have notEmpty : field.isEmpty = false := List.isEmpty_eq_false_iff.mpr nonempty
    have fits : Nat.ofDigitChars 10 field 0 < UInt32.size := small
    simp [allDigits, notEmpty, fits, fieldNumber]

theorem fieldValue?_eq_none_iff {field : List Char} :
    fieldValue? field = none ↔ ¬IsNumeral field := by
  constructor
  · intro unread numeral
    have read := fieldValue?_eq_some_iff.mpr ⟨numeral, rfl⟩
    rw [unread] at read
    cases read
  · intro malformed
    cases read : fieldValue? field with
    | none => rfl
    | some value => exact absurd (fieldValue?_eq_some_iff.mp read).1 malformed

theorem fieldValues_eq_ok_iff {index : Nat} {fields : List (List Char)} {values : List Nat} :
    fieldValues index fields = .ok values ↔
      (∀ field, field ∈ fields → IsNumeral field) ∧ fields.map fieldNumber = values := by
  induction fields generalizing index values with
  | nil =>
      unfold fieldValues
      simp
  | cons field fields induction =>
      unfold fieldValues
      cases read : fieldValue? field with
      | none =>
          have malformed := fieldValue?_eq_none_iff.mp read
          simp [malformed]
      | some value =>
          obtain ⟨numeral, rfl⟩ := fieldValue?_eq_some_iff.mp read
          simp only [List.forall_mem_cons, numeral, true_and, List.map_cons]
          constructor
          · intro rest
            obtain ⟨later, laterRead, joined⟩ := bind_eq_ok_iff.mp rest
            cases joined
            obtain ⟨numerals, rfl⟩ := induction.mp laterRead
            exact ⟨numerals, rfl⟩
          · rintro ⟨numerals, rfl⟩
            rw [induction.mpr ⟨numerals, rfl⟩]
            rfl

theorem fieldValues_eq_error_iff
    {index : Nat} {fields : List (List Char)} {error : ParseError} :
    fieldValues index fields = .error error ↔
      ∃ before field after, fields = before ++ field :: after ∧
        (∀ numeral, numeral ∈ before → IsNumeral numeral) ∧ ¬IsNumeral field ∧
        error = .malformedField (index + before.length) (String.ofList field) := by
  induction fields generalizing index with
  | nil =>
      unfold fieldValues
      simp
  | cons head fields induction =>
      unfold fieldValues
      cases read : fieldValue? head with
      | none =>
          have malformed := fieldValue?_eq_none_iff.mp read
          constructor
          · intro failed
            cases failed
            exact ⟨[], head, fields, rfl, by simp, malformed, rfl⟩
          · rintro ⟨before, field, after, split, numerals, _, rfl⟩
            cases before with
            | nil =>
                cases split
                rfl
            | cons first before =>
                cases split
                exact absurd (numerals head List.mem_cons_self) malformed
      | some value =>
          have numeral := (fieldValue?_eq_some_iff.mp read).1
          simp only
          constructor
          · intro failed
            have laterFailed : fieldValues (index + 1) fields = .error error := by
              rcases bind_eq_error_iff.mp failed with later | ⟨values, _, joined⟩
              · exact later
              · cases joined
            obtain ⟨before, field, after, rfl, numerals, malformed, rfl⟩ :=
              induction.mp laterFailed
            refine ⟨head :: before, field, after, rfl, ?_, malformed, ?_⟩
            · exact List.forall_mem_cons.mpr ⟨numeral, numerals⟩
            · rw [List.length_cons, Nat.succ_add_eq_add_succ]
          · rintro ⟨before, field, after, split, numerals, malformed, rfl⟩
            cases before with
            | nil =>
                cases split
                exact absurd numeral malformed
            | cons first before =>
                cases split
                have later := (List.forall_mem_cons.mp numerals).2
                have laterFailed := induction.mpr ⟨before, field, after, rfl, later,
                  malformed, by rw [List.length_cons, Nat.succ_add_eq_add_succ]⟩
                rw [laterFailed]
                rfl

/-! ## Records of numbers -/

/-- The numbers can be knobs: nine of which the last two are flags, or six without
flags, and all that are no flags are positive. -/
structure IsRecord (numbers : List Nat) : Prop where
  count : numbers.length = 9 ∨ numbers.length = 6
  quantities : ∀ quantity, quantity ∈ numbers.take 7 → 0 < quantity
  flags : ∀ flag, flag ∈ numbers.drop 7 → flag ≤ 1

/-- The first thing that keeps numbers from being knobs. -/
inductive Flaw (numbers : List Nat) : ParseError → Prop
  | fieldCount (notMatrix : numbers.length ≠ 9) (notScalar : numbers.length ≠ 6) :
      Flaw numbers (.fieldCount numbers.length)
  | zeroField {before after : List Nat}
      (count : numbers.length = 9 ∨ numbers.length = 6)
      (first : numbers.take 7 = before ++ 0 :: after)
      (positive : ∀ quantity, quantity ∈ before → 0 < quantity) :
      Flaw numbers (.zeroField before.length)
  | badFlag {before after : List Nat} {value : Nat}
      (count : numbers.length = 9 ∨ numbers.length = 6)
      (positive : ∀ quantity, quantity ∈ numbers.take 7 → 0 < quantity)
      (first : numbers.drop 7 = before ++ value :: after)
      (flags : ∀ flag, flag ∈ before → flag ≤ 1) (bad : 1 < value) :
      Flaw numbers (.badFlag (7 + before.length) value)

private theorem findIdx?_zero_eq_some_iff {values : List Nat} {index : Nat} :
    values.findIdx? (· == 0) = some index ↔
      ∃ before after, values = before ++ 0 :: after ∧
        (∀ value, value ∈ before → 0 < value) ∧ before.length = index := by
  induction values generalizing index with
  | nil => simp
  | cons value values induction =>
      rw [List.findIdx?_cons]
      cases value with
      | zero =>
          constructor
          · intro isFirst
            cases isFirst
            exact ⟨[], values, rfl, by simp, rfl⟩
          · rintro ⟨before, after, split, positive, rfl⟩
            cases before with
            | nil => rfl
            | cons head before =>
                cases split
                exact absurd (positive 0 List.mem_cons_self) (Nat.lt_irrefl 0)
      | succ value =>
          rw [if_neg (by simp), Option.map_eq_some_iff]
          constructor
          · rintro ⟨later, isLater, rfl⟩
            obtain ⟨before, after, rfl, positive, rfl⟩ := induction.mp isLater
            refine ⟨(value + 1) :: before, after, rfl, ?_, rfl⟩
            exact List.forall_mem_cons.mpr ⟨Nat.succ_pos value, positive⟩
          · rintro ⟨before, after, split, positive, rfl⟩
            cases before with
            | nil => cases split
            | cons head before =>
                cases split
                have later := (List.forall_mem_cons.mp positive).2
                exact ⟨before.length, induction.mpr ⟨before, after, rfl, later, rfl⟩, rfl⟩

theorem requirePositive_eq_error_iff {values : List Nat} {error : ParseError} :
    requirePositive values = .error error ↔
      ∃ before after, values = before ++ 0 :: after ∧
        (∀ value, value ∈ before → 0 < value) ∧ error = .zeroField before.length := by
  unfold requirePositive
  constructor
  · intro failed
    split at failed
    · rename_i index search
      cases failed
      obtain ⟨before, after, split, positive, rfl⟩ := findIdx?_zero_eq_some_iff.mp search
      exact ⟨before, after, split, positive, rfl⟩
    · cases failed
  · rintro ⟨before, after, split, positive, rfl⟩
    rw [findIdx?_zero_eq_some_iff.mpr ⟨before, after, split, positive, rfl⟩]

theorem flagOf_eq_ok_iff {index value : Nat} {flag : Bool} :
    flagOf index value = .ok flag ↔ value = flagNumber flag := by
  match value with
  | 0 => cases flag <;> simp [flagOf, flagNumber]
  | 1 => cases flag <;> simp [flagOf, flagNumber]
  | value + 2 => cases flag <;> simp [flagOf, flagNumber]

theorem flagOf_eq_error_iff {index value : Nat} {error : ParseError} :
    flagOf index value = .error error ↔ 1 < value ∧ error = .badFlag index value := by
  match value with
  | 0 => simp [flagOf]
  | 1 => simp [flagOf]
  | value + 2 => simp [flagOf, eq_comm]

theorem flagNumber_le (flag : Bool) : flagNumber flag ≤ 1 := by
  cases flag <;> decide

private theorem exists_flagNumber {value : Nat} (small : value ≤ 1) :
    ∃ flag, value = flagNumber flag := by
  match value, small with
  | 0, _ => exact ⟨false, rfl⟩
  | 1, _ => exact ⟨true, rfl⟩

theorem quantities_eq_take (config : Config) :
    config.quantities = config.numbers.take 7 := by
  cases config <;> rfl

theorem isRecord_numbers_iff {config : Config} :
    IsRecord config.numbers ↔ config.Positive := by
  unfold Positive
  rw [quantities_eq_take]
  constructor
  · intro record
    exact record.quantities
  · intro positive
    refine ⟨?_, positive, ?_⟩
    · cases config with
      | matrix knobs => exact .inl rfl
      | scalar knobs => exact .inr rfl
    · intro flag member
      cases config with
      | matrix knobs =>
          rcases List.mem_cons.mp member with rfl | last
          · exact flagNumber_le _
          · cases List.mem_singleton.mp last
            exact flagNumber_le _
      | scalar knobs => cases member

private theorem exists_of_length_eq_nine {numbers : List Nat} (nine : numbers.length = 9) :
    ∃ mPerBlock nPerBlock kPerBlock mPerWave nPerWave kPack splitK forceUnroll bCopyMore,
      numbers = [mPerBlock, nPerBlock, kPerBlock, mPerWave, nPerWave, kPack, splitK,
        forceUnroll, bCopyMore] :=
  match numbers, nine with
  | [_, _, _, _, _, _, _, _, _], _ => ⟨_, _, _, _, _, _, _, _, _, rfl⟩

private theorem exists_of_length_eq_six {numbers : List Nat} (six : numbers.length = 6) :
    ∃ blockSize mPerBlock nPerBlock kPerBlock mPerThread nPerThread,
      numbers = [blockSize, mPerBlock, nPerBlock, kPerBlock, mPerThread, nPerThread] :=
  match numbers, six with
  | [_, _, _, _, _, _], _ => ⟨_, _, _, _, _, _, rfl⟩

theorem ofNumbers_eq_error_iff {numbers : List Nat} {error : ParseError} :
    ofNumbers numbers = .error error ↔ Flaw numbers error := by
  constructor
  · intro failed
    unfold ofNumbers at failed
    split at failed
    · -- Nine numbers: the quantities are looked at before the flags.
      rcases bind_eq_error_iff.mp failed with zero | ⟨_, required, flagsFailed⟩
      · obtain ⟨before, after, first, positive, rfl⟩ := requirePositive_eq_error_iff.mp zero
        exact .zeroField (.inl rfl) first positive
      · have positive := requirePositive_eq_ok_iff.mp required
        rcases bind_eq_error_iff.mp flagsFailed with bad | ⟨forceUnroll, read, lastFailed⟩
        · obtain ⟨large, rfl⟩ := flagOf_eq_error_iff.mp bad
          exact @Flaw.badFlag _ [] _ _ (.inl rfl) positive rfl (by simp) large
        · cases flagOf_eq_ok_iff.mp read
          rcases bind_eq_error_iff.mp lastFailed with bad | ⟨bCopyMore, _, done⟩
          · obtain ⟨large, rfl⟩ := flagOf_eq_error_iff.mp bad
            refine @Flaw.badFlag _ [flagNumber forceUnroll] _ _ (.inl rfl) positive rfl ?_
              large
            exact List.forall_mem_singleton.mpr (flagNumber_le forceUnroll)
          · cases done
    · rcases bind_eq_error_iff.mp failed with zero | ⟨_, _, done⟩
      · obtain ⟨before, after, first, positive, rfl⟩ := requirePositive_eq_error_iff.mp zero
        exact .zeroField (.inr rfl) first positive
      · cases done
    · rename_i notNine notSix
      cases failed
      apply Flaw.fieldCount
      · intro nine
        obtain ⟨_, _, _, _, _, _, _, _, _, rfl⟩ := exists_of_length_eq_nine nine
        exact notNine _ _ _ _ _ _ _ _ _ rfl
      · intro six
        obtain ⟨_, _, _, _, _, _, rfl⟩ := exists_of_length_eq_six six
        exact notSix _ _ _ _ _ _ rfl
  · intro flaw
    cases flaw with
    | fieldCount notMatrix notScalar =>
        unfold ofNumbers
        split
        · exact absurd rfl notMatrix
        · exact absurd rfl notScalar
        · rfl
    | zeroField count first positive =>
        have zero := requirePositive_eq_error_iff.mpr ⟨_, _, first, positive, rfl⟩
        rcases count with nine | six
        · obtain ⟨_, _, _, _, _, _, _, _, _, rfl⟩ := exists_of_length_eq_nine nine
          exact bind_eq_error_iff.mpr (.inl zero)
        · obtain ⟨_, _, _, _, _, _, rfl⟩ := exists_of_length_eq_six six
          exact bind_eq_error_iff.mpr (.inl zero)
    | @badFlag before after value count positive first flags bad =>
        have required := requirePositive_eq_ok_iff.mpr positive
        rcases count with nine | six
        · obtain ⟨_, _, _, _, _, _, _, forceUnroll, bCopyMore, rfl⟩ :=
            exists_of_length_eq_nine nine
          refine bind_eq_error_iff.mpr (.inr ⟨(), required, ?_⟩)
          have flagNumbers : [forceUnroll, bCopyMore] = before ++ value :: after := first
          cases before with
          | nil =>
              obtain ⟨rfl, _⟩ := List.cons.inj flagNumbers
              exact bind_eq_error_iff.mpr (.inl (flagOf_eq_error_iff.mpr ⟨bad, rfl⟩))
          | cons earlier before =>
              obtain ⟨rfl, lastNumber⟩ := List.cons.inj flagNumbers
              obtain ⟨flag, isFlag⟩ := exists_flagNumber (flags forceUnroll List.mem_cons_self)
              refine bind_eq_error_iff.mpr (.inr ⟨flag, flagOf_eq_ok_iff.mpr isFlag, ?_⟩)
              cases before with
              | nil =>
                  obtain ⟨rfl, _⟩ := List.cons.inj lastNumber
                  exact bind_eq_error_iff.mpr (.inl (flagOf_eq_error_iff.mpr ⟨bad, rfl⟩))
              | cons => simp at lastNumber
        · obtain ⟨_, _, _, _, _, _, rfl⟩ := exists_of_length_eq_six six
          simp at first

theorem numbers_of_ofNumbers {numbers : List Nat} {config : Config}
    (small : ∀ number, number ∈ numbers → number < UInt32.size)
    (read : ofNumbers numbers = .ok config) :
    config.numbers = numbers ∧ ∀ quantity, quantity ∈ numbers.take 7 → 0 < quantity := by
  have restored : ∀ number, number ∈ numbers → (UInt32.ofNat number).toNat = number :=
    fun number member => UInt32.toNat_ofNat_of_lt (small number member)
  unfold ofNumbers at read
  split at read
  · obtain ⟨_, required, read⟩ := bind_eq_ok_iff.mp read
    obtain ⟨forceUnroll, forceUnrollRead, read⟩ := bind_eq_ok_iff.mp read
    obtain ⟨bCopyMore, bCopyMoreRead, read⟩ := bind_eq_ok_iff.mp read
    cases read
    cases flagOf_eq_ok_iff.mp forceUnrollRead
    cases flagOf_eq_ok_iff.mp bCopyMoreRead
    simp only [List.forall_mem_cons] at restored
    exact ⟨by simp [Config.numbers, restored], requirePositive_eq_ok_iff.mp required⟩
  · obtain ⟨_, required, read⟩ := bind_eq_ok_iff.mp read
    cases read
    simp only [List.forall_mem_cons] at restored
    exact ⟨by simp [Config.numbers, restored], requirePositive_eq_ok_iff.mp required⟩
  · cases read

theorem ofNumbers_eq_ok_iff {numbers : List Nat} {config : Config}
    (small : ∀ number, number ∈ numbers → number < UInt32.size) :
    ofNumbers numbers = .ok config ↔ IsRecord numbers ∧ config.numbers = numbers := by
  constructor
  · intro read
    obtain ⟨rfl, positive⟩ := numbers_of_ofNumbers small read
    rw [← quantities_eq_take] at positive
    exact ⟨isRecord_numbers_iff.mpr positive, rfl⟩
  · rintro ⟨record, rfl⟩
    exact ofNumbers_numbers (isRecord_numbers_iff.mp record)

/-- The text is the version, a colon and the fields with commas between them. -/
structure Spells (text : String) (fields : List (List Char)) : Prop where
  written : text.toList = version ++ ':' :: [','].intercalate fields
  nonempty : fields ≠ []
  separate : ∀ field, field ∈ fields → ',' ∉ field

/-- The text belongs to the grammar: its fields are numerals, and their numbers are
those of a configuration. -/
structure IsText (text : String) (fields : List (List Char)) : Prop
    extends Spells text fields where
  numerals : ∀ field, field ∈ fields → IsNumeral field
  record : IsRecord (fields.map fieldNumber)

/-- The first thing that is wrong with a text. -/
inductive Refuses (text : String) : ParseError → Prop
  | empty (nothing : text = "") : Refuses text .empty
  | missingVersion (something : text ≠ "") (noColon : ':' ∉ text.toList) :
      Refuses text (.missingVersion text)
  | unsupportedVersion {start body : List Char}
      (written : text.toList = start ++ ':' :: body) (first : ':' ∉ start)
      (other : start ≠ version) :
      Refuses text (.unsupportedVersion (String.ofList start))
  | malformedField {before after : List (List Char)} {field : List Char}
      (spells : Spells text (before ++ field :: after))
      (numerals : ∀ numeral, numeral ∈ before → IsNumeral numeral)
      (malformed : ¬IsNumeral field) :
      Refuses text (.malformedField before.length (String.ofList field))
  | flaw {fields : List (List Char)} {error : ParseError}
      (spells : Spells text fields)
      (numerals : ∀ field, field ∈ fields → IsNumeral field)
      (flaw : Flaw (fields.map fieldNumber) error) : Refuses text error

theorem Spells.splitOn_eq {text : String} {fields : List (List Char)}
    (spells : Spells text fields) : ([','].intercalate fields).splitOn ',' = fields :=
  List.splitOn_intercalate ',' spells.separate spells.nonempty

theorem Spells.decode_eq {text : String} {fields : List (List Char)}
    (spells : Spells text fields) :
    decode text = fieldValues 0 fields >>= ofNumbers := by
  unfold decode
  rw [spells.written, decodeChars_version, spells.splitOn_eq]

/-- A text is spelled by one list of fields only. -/
theorem Spells.unique {text : String} {fields others : List (List Char)}
    (spells : Spells text fields) (otherSpells : Spells text others) : fields = others := by
  have same := spells.written.symm.trans otherSpells.written
  have bodies := (List.cons.inj (List.append_cancel_left same)).2
  rw [← spells.splitOn_eq, bodies, otherSpells.splitOn_eq]

private theorem not_mem_of_mem_splitOn {separator : Char} {chars part : List Char}
    (member : part ∈ chars.splitOn separator) : separator ∉ part := by
  induction chars generalizing part with
  | nil =>
      rw [List.splitOn_nil, List.mem_singleton] at member
      simp [member]
  | cons char chars induction =>
      rw [List.splitOn_cons_eq_if_modifyHead] at member
      split at member
      · rcases List.mem_cons.mp member with rfl | later
        · simp
        · exact induction later
      · rename_i different
        cases parts : chars.splitOn separator with
        | nil => exact absurd parts (List.splitOn_ne_nil separator chars)
        | cons head tail =>
            rw [parts, List.modifyHead_cons] at member
            rcases List.mem_cons.mp member with rfl | later
            · have headFree := induction (parts ▸ List.mem_cons_self)
              have charDifferent : separator ≠ char := by
                intro same
                exact different (beq_iff_eq.mpr same.symm)
              exact List.not_mem_cons_of_ne_of_not_mem charDifferent headFree
            · exact induction (parts ▸ List.mem_cons_of_mem head later)

theorem spells_splitOn {text : String} {body : List Char}
    (written : text.toList = version ++ ':' :: body) : Spells text (body.splitOn ',') where
  written := by rw [written, List.intercalate_splitOn]
  nonempty := List.splitOn_ne_nil ',' body
  separate _ member := not_mem_of_mem_splitOn member

theorem span_append {start : List Char} (noColon : ':' ∉ start) (rest : List Char) :
    (start ++ rest).span (· != ':') =
      (start ++ rest.takeWhile (· != ':'), rest.dropWhile (· != ':')) := by
  have passes : ∀ char, char ∈ start → (char != ':') = true := by
    intro char member
    simpa using fun same : char = ':' => noColon (same ▸ member)
  rw [List.span_eq_takeWhile_dropWhile, List.takeWhile_append_of_pos passes,
    List.dropWhile_append_of_pos passes]

theorem decode_of_noColon {text : String}
    (something : text ≠ "") (noColon : ':' ∉ text.toList) :
    decode text = .error (.missingVersion text) := by
  have notEmpty : text.toList.isEmpty = false := by
    simpa [List.isEmpty_eq_false_iff] using something
  have whole := span_append noColon []
  rw [List.append_nil] at whole
  unfold decode decodeChars
  rw [notEmpty, whole]
  simp

theorem decode_of_otherVersion {text : String} {start body : List Char}
    (written : text.toList = start ++ ':' :: body) (noColon : ':' ∉ start)
    (other : start ≠ version) :
    decode text = .error (.unsupportedVersion (String.ofList start)) := by
  unfold decode decodeChars
  rw [written, span_append noColon]
  simp [other]

/-- Every text that is not even a list of fields behind the version is refused. -/
theorem refused_or_spells (text : String) :
    (∃ error, decode text = .error error ∧ Refuses text error) ∨
      ∃ fields, Spells text fields := by
  by_cases nothing : text = ""
  · subst nothing
    exact .inl ⟨.empty, rfl, .empty rfl⟩
  by_cases colon : ':' ∈ text.toList
  · obtain ⟨start, body, written, noColon⟩ := List.eq_append_cons_of_mem colon
    by_cases current : start = version
    · subst current
      exact .inr ⟨_, spells_splitOn written⟩
    · exact .inl ⟨_, decode_of_otherVersion written noColon current,
        .unsupportedVersion written noColon current⟩
  · exact .inl ⟨_, decode_of_noColon nothing colon, .missingVersion nothing colon⟩

theorem fieldNumber_lt {fields : List (List Char)}
    (numerals : ∀ field, field ∈ fields → IsNumeral field) :
    ∀ number, number ∈ fields.map fieldNumber → number < UInt32.size := by
  intro number member
  obtain ⟨field, fieldMember, rfl⟩ := List.mem_map.mp member
  exact (numerals field fieldMember).small

/-- The reader accepts the texts of the grammar, with the numbers of their fields. -/
theorem decode_eq_ok_iff {text : String} {config : Config} :
    decode text = .ok config ↔
      ∃ fields, IsText text fields ∧ config.numbers = fields.map fieldNumber := by
  constructor
  · intro read
    rcases refused_or_spells text with ⟨error, refused, _⟩ | ⟨fields, spells⟩
    · rw [refused] at read
      cases read
    · rw [spells.decode_eq] at read
      obtain ⟨numbers, fieldsRead, knobsRead⟩ := bind_eq_ok_iff.mp read
      obtain ⟨numerals, rfl⟩ := fieldValues_eq_ok_iff.mp fieldsRead
      obtain ⟨record, same⟩ := (ofNumbers_eq_ok_iff (fieldNumber_lt numerals)).mp knobsRead
      exact ⟨fields, ⟨spells, numerals, record⟩, same⟩
  · rintro ⟨fields, isText, same⟩
    rw [isText.decode_eq, fieldValues_eq_ok_iff.mpr ⟨isText.numerals, rfl⟩]
    exact (ofNumbers_eq_ok_iff (fieldNumber_lt isText.numerals)).mpr ⟨isText.record, same⟩

theorem positive_of_decode {text : String} {config : Config}
    (read : decode text = .ok config) : config.Positive := by
  obtain ⟨fields, isText, same⟩ := decode_eq_ok_iff.mp read
  exact isRecord_numbers_iff.mp (same ▸ isText.record)

/-- The reader reports the first thing that is wrong. -/
theorem decode_eq_error_iff {text : String} {error : ParseError} :
    decode text = .error error ↔ Refuses text error := by
  constructor
  · intro failed
    rcases refused_or_spells text with ⟨other, refused, refuses⟩ | ⟨fields, spells⟩
    · rw [refused] at failed
      cases failed
      exact refuses
    · rw [spells.decode_eq] at failed
      rcases bind_eq_error_iff.mp failed with malformed | ⟨numbers, fieldsRead, knobsFailed⟩
      · obtain ⟨before, field, after, rfl, numerals, noNumeral, rfl⟩ :=
          fieldValues_eq_error_iff.mp malformed
        rw [Nat.zero_add]
        exact .malformedField spells numerals noNumeral
      · obtain ⟨numerals, rfl⟩ := fieldValues_eq_ok_iff.mp fieldsRead
        exact .flaw spells numerals (ofNumbers_eq_error_iff.mp knobsFailed)
  · intro refuses
    cases refuses with
    | empty nothing =>
        subst nothing
        rfl
    | missingVersion something noColon => exact decode_of_noColon something noColon
    | unsupportedVersion written first other => exact decode_of_otherVersion written first other
    | @malformedField before after field spells numerals malformed =>
        rw [spells.decode_eq]
        apply bind_eq_error_iff.mpr
        left
        exact fieldValues_eq_error_iff.mpr
          ⟨before, field, after, rfl, numerals, malformed, by rw [Nat.zero_add]⟩
    | flaw spells numerals flaw =>
        rw [spells.decode_eq, fieldValues_eq_ok_iff.mpr ⟨numerals, rfl⟩]
        exact ofNumbers_eq_error_iff.mpr flaw

end KernelTuning.Config
