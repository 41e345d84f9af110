import KernelTuning.Proofs.ConfigGrammar
import Mathlib.Data.List.Induction

/-!
# Canonical texts

Of the many texts that stand for one configuration exactly one is ever written: the
one in which no number starts with a zero that it could do without.  Writing is
therefore injective, and reading undoes it.
-/

namespace KernelTuning.Config

/-- A zero in front of further digits. -/
def HasSpareZero (field : List Char) : Prop :=
  ∃ rest, rest ≠ [] ∧ field = '0' :: rest

theorem fieldNumber_toDigits (number : Nat) :
    fieldNumber (Nat.toDigits 10 number) = number :=
  Nat.ofDigitChars_ten_toDigits

theorem exists_digitChar {char : Char} (digit : char.isDigit = true) :
    ∃ value, value < 10 ∧ char = Nat.digitChar value := by
  obtain ⟨lower, upper⟩ := Char.isDigit_iff_toNat.mp digit
  have zero : '0'.toNat = 48 := rfl
  have nine : '9'.toNat = 57 := rfl
  have small : char.toNat - 48 < 10 := by omega
  refine ⟨char.toNat - 48, small, ?_⟩
  apply Char.toNat_inj.mp
  rw [Nat.toNat_digitChar_of_lt_ten small]
  omega

theorem not_hasSpareZero_toDigits (number : Nat) :
    ¬HasSpareZero (Nat.toDigits 10 number) := by
  induction number using Nat.strongRecOn with
  | ind number induction =>
      rintro ⟨rest, nonempty, digits⟩
      by_cases small : number < 10
      · rw [Nat.toDigits_of_lt_base small] at digits
        exact nonempty (List.cons.inj digits).2.symm
      · have large : 10 ≤ number := Nat.not_lt.mp small
        rw [Nat.toDigits_of_base_le (by decide) large] at digits
        cases leading : Nat.toDigits 10 (number / 10) with
        | nil => exact Nat.toDigits_ne_nil leading
        | cons first others =>
            rw [leading, List.cons_append] at digits
            obtain ⟨rfl, _⟩ := List.cons.inj digits
            cases others with
            | nil =>
                -- The leading digits would be a lone zero, but there are at least ten tens.
                have value := fieldNumber_toDigits (number / 10)
                rw [leading] at value
                have zero : fieldNumber ['0'] = 0 := rfl
                omega
            | cons second others =>
                exact induction (number / 10) (by omega)
                  ⟨second :: others, List.cons_ne_nil second others, leading⟩

theorem spells_encode (config : Config) :
    Spells config.encode (config.numbers.map (Nat.toDigits 10)) where
  written := by
    unfold encode
    rw [String.toList_ofList]
  nonempty := by cases config <;> simp [numbers]
  separate field member := by
    obtain ⟨number, _, rfl⟩ := List.mem_map.mp member
    exact comma_not_mem_toDigits number

theorem map_fieldNumber_toDigits (numbers : List Nat) :
    (numbers.map (Nat.toDigits 10)).map fieldNumber = numbers := by
  rw [List.map_map]
  exact List.map_id'' fieldNumber_toDigits numbers

/-- Writing never goes wrong before the numbers are looked at together. -/
theorem decode_encode_of_flaw {config : Config} {error : ParseError}
    (flaw : Flaw config.numbers error) : decode config.encode = .error error := by
  apply decode_eq_error_iff.mpr
  apply Refuses.flaw (spells_encode config)
  · intro field member
    obtain ⟨number, numberMember, rfl⟩ := List.mem_map.mp member
    exact (fieldValue?_eq_some_iff.mp (fieldValue?_toDigits (numbers_lt numberMember))).1
  · rw [map_fieldNumber_toDigits]
    exact flaw

end KernelTuning.Config
