import KernelTuning.Text.Flags

/-!
# Reading flags back

Flags without blanks in their names and values can be read back from their text:
splitting it at the blanks gives the names, each behind a dash, and the values in
turn.  The text in front of the last tab is found in the same way.
-/

namespace KernelTuning.Text

/-- What holds of commas and of every field holds of the fields between commas. -/
theorem forall_mem_intercalate {keep : Char → Prop} {fields : List (List Char)}
    (comma : keep ',')
    (holds : ∀ field, field ∈ fields → ∀ char, char ∈ field → keep char) :
    ∀ char, char ∈ [','].intercalate fields → keep char := by
  intro char member
  induction fields with
  | nil => simp at member
  | cons field fields induction =>
      have tail := induction fun later laterMember =>
        holds later (List.mem_cons_of_mem _ laterMember)
      cases fields with
      | nil => exact holds field List.mem_cons_self char (by simpa using member)
      | cons next fields =>
          rw [List.intercalate_cons_cons, List.mem_append, List.mem_append] at member
          rcases member with (inField | isComma) | later
          · exact holds field List.mem_cons_self char inField
          · exact List.mem_singleton.mp isComma ▸ comma
          · exact tail later

/-- A text without blanks and tabs. -/
def Plain (text : String) : Prop :=
  ∀ char, char ∈ text.toList → char ≠ ' ' ∧ char ≠ '\t'

instance (text : String) : Decidable (Plain text) :=
  List.decidableBAll _ _

namespace Plain

theorem no_blank {text : String} (plain : Plain text) : ' ' ∉ text.toList :=
  fun member => (plain ' ' member).1 rfl

theorem no_tab {text : String} (plain : Plain text) : '\t' ∉ text.toList :=
  fun member => (plain '\t' member).2 rfl

theorem number (value : Nat) : Plain (toString value) := by
  intro char member
  rw [Nat.toString_eq_ofList_toDigits, String.toList_ofList] at member
  have digit := Nat.isDigit_of_mem_toDigits (by decide) (by decide) member
  constructor
  · rintro rfl
    exact absurd digit (by decide)
  · rintro rfl
    exact absurd digit (by decide)

theorem listing
    {texts : List String} (plain : ∀ text, text ∈ texts → Plain text) :
    Plain (",".intercalate texts) := by
  intro char member
  rw [String.toList_intercalate] at member
  refine @forall_mem_intercalate (fun char => char ≠ ' ' ∧ char ≠ '\t') _ (by decide) ?_
    char member
  intro field fieldMember
  obtain ⟨text, textMember, rfl⟩ := List.mem_map.mp fieldMember
  exact plain text textMember

end Plain

theorem toString_nat_injective {value other : Nat}
    (same : toString value = toString other) : value = other := by
  rw [Nat.toString_eq_ofList_toDigits, Nat.toString_eq_ofList_toDigits] at same
  have digits := String.ofList_injective same
  have restored := congrArg (fun chars => Nat.ofDigitChars 10 chars 0) digits
  simpa only [Nat.ofDigitChars_ten_toDigits] using restored

/-- A listing of texts without commas determines them, unless it may be empty. -/
theorem listing_injective
    {texts others : List String}
    (nonempty : texts ≠ []) (otherNonempty : others ≠ [])
    (commaless : ∀ text, text ∈ texts → ',' ∉ text.toList)
    (otherCommaless : ∀ text, text ∈ others → ',' ∉ text.toList)
    (same : ",".intercalate texts = ",".intercalate others) : texts = others := by
  have split : ∀ {list : List String}, list ≠ [] →
      (∀ text, text ∈ list → ',' ∉ text.toList) →
      (",".intercalate list).toList.splitOn ',' = list.map String.toList := by
    intro list listNonempty listCommaless
    rw [String.toList_intercalate]
    refine List.splitOn_intercalate ',' ?_ (by simpa using listNonempty)
    simpa using listCommaless
  have pieces := split nonempty commaless
  rw [same, split otherNonempty otherCommaless] at pieces
  exact ((List.map_inj_right fun _ _ => String.toList_inj.mp).mp pieces).symm

/-! ## Flags -/

/-- The words of flags, without the blanks between them. -/
def words (flags : List (String × String)) : List (List Char) :=
  flags.flatMap fun (name, value) => ['-' :: name.toList, value.toList]

theorem filter_name_eq_self {flags : List (String × String)} {name : String}
    (named : ∀ flag, flag ∈ flags → flag.1 = name) :
    flags.filter (·.1 == name) = flags := by
  apply List.filter_eq_self.mpr
  intro flag member
  exact beq_iff_eq.mpr (named flag member)

theorem filter_name_eq_nil {flags : List (String × String)} {name : String}
    (unnamed : ∀ flag, flag ∈ flags → flag.1 ≠ name) :
    flags.filter (·.1 == name) = [] := by
  apply List.filter_eq_nil_iff.mpr
  intro flag member
  simpa using unnamed flag member

theorem splitOn_writeFlags
    {word : List Char} {flags : List (String × String)}
    (blankless : ' ' ∉ word)
    (plain : ∀ flag, flag ∈ flags → Plain flag.1 ∧ Plain flag.2) :
    (word ++ writeFlags flags).splitOn ' ' = word :: words flags := by
  induction flags generalizing word with
  | nil => simpa [words] using List.splitOn_eq_singleton blankless
  | cons flag flags induction =>
      obtain ⟨name, value⟩ := flag
      have head := plain (name, value) List.mem_cons_self
      have dashed : ' ' ∉ '-' :: name.toList := by
        simpa using head.1.no_blank
      have tail : (value.toList ++ writeFlags flags).splitOn ' ' =
          value.toList :: words flags :=
        induction head.2.no_blank fun later member =>
          plain later (List.mem_cons_of_mem _ member)
      have written :
          writeFlags ((name, value) :: flags) =
            ' ' :: (('-' :: name.toList) ++ ' ' :: (value.toList ++ writeFlags flags)) := by
        simp [writeFlags]
      rw [written, List.splitOn_append_cons_self_of_not_mem blankless,
        List.splitOn_append_cons_self_of_not_mem dashed, tail]
      rfl

theorem words_injective {flags others : List (String × String)}
    (same : words flags = words others) : flags = others := by
  induction flags generalizing others with
  | nil =>
      cases others with
      | nil => rfl
      | cons other others => cases same
  | cons flag flags induction =>
      cases others with
      | nil => cases same
      | cons other others =>
          obtain ⟨name, value⟩ := flag
          obtain ⟨otherName, otherValue⟩ := other
          simp only [words, List.flatMap_cons, List.cons_append, List.nil_append,
            List.cons.injEq, true_and] at same
          obtain ⟨names, values, rest⟩ := same
          rw [String.toList_inj.mp names, String.toList_inj.mp values, induction rest]

theorem no_tab_writeFlags
    {flags : List (String × String)}
    (plain : ∀ flag, flag ∈ flags → Plain flag.1 ∧ Plain flag.2) :
    '\t' ∉ writeFlags flags := by
  intro member
  obtain ⟨⟨name, value⟩, flagMember, charMember⟩ := List.mem_flatMap.mp member
  have flagPlain := plain (name, value) flagMember
  simp only [List.mem_cons, List.mem_append, List.cons_append, Char.reduceEq,
    false_or] at charMember
  rcases charMember with inName | inValue
  · exact flagPlain.1.no_tab inName
  · exact flagPlain.2.no_tab inValue

/-! ## Separators -/

/-- Two texts are cut alike behind their last separators. -/
theorem append_separator_inj
    {separator : Char} {front other tail rest : List Char}
    (absent : separator ∉ tail) (otherAbsent : separator ∉ rest)
    (same : front ++ separator :: tail = other ++ separator :: rest) :
    front = other ∧ tail = rest := by
  rcases List.append_eq_append_iff.mp same with
    ⟨gap, otherEq, tailEq⟩ | ⟨gap, frontEq, restEq⟩
  · cases gap with
    | nil => exact ⟨by simpa using otherEq.symm, by simpa using tailEq⟩
    | cons char gap =>
        have equal := (List.cons.inj tailEq).2
        exact absurd (equal ▸ by simp) absent
  · cases gap with
    | nil => exact ⟨by simpa using frontEq, by simpa using restEq.symm⟩
    | cons char gap =>
        have equal := (List.cons.inj restEq).2
        exact absurd (equal ▸ by simp) otherAbsent

end KernelTuning.Text
