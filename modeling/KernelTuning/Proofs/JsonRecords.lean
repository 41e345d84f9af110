import KernelTuning.Json.Schema
import KernelTuning.Proofs.JsonTokens

/-!
# Decoding written records

Each decoder undoes the form in which its values are written.  A written record is an object
whose members bear field names in the order of the fields, so all of them are present and
none stands twice.
-/

namespace KernelTuning.Json

/-! ## Words and numbers -/

theorem natural?_ofNat {value bound : Nat} (small : value < bound) :
    natural? bound (.integer value) = some value := by
  simp [natural?, small]

@[simp] theorem uint32?_toNat (word : UInt32) : uint32? (.integer word.toNat) = some word := by
  rw [uint32?, natural?_ofNat word.toNat_lt_size]
  simp

@[simp] theorem uint64?_toNat (word : UInt64) : uint64? (.integer word.toNat) = some word := by
  rw [uint64?, natural?_ofNat word.toNat_lt_size]
  simp

@[simp] theorem int64?_toInt (word : Int64) : int64? (.integer word.toInt) = some word := by
  rw [int64?, if_pos ⟨word.minValue_le_toInt, word.toInt_le⟩, Int64.ofInt_toInt]

@[simp] theorem string?_string (text : String) : string? (.string text) = some text :=
  rfl

@[simp] theorem boolean?_boolean (value : Bool) : boolean? (.boolean value) = some value :=
  rfl

theorem binary64?_float {value : Binary64} (finite : value.isFinite = true) :
    binary64? (.float value) = some value := by
  simp [binary64?, finite]

theorem isFinite_of_binary64? {json : Json} {value : Binary64}
    (read : binary64? json = some value) : value.isFinite = true := by
  unfold binary64? at read
  split at read
  · split at read
    · rename_i finite
      cases read
      exact finite
    · cases read
  · dsimp only at read
    split at read
    · rename_i finite
      cases read
      exact finite
    · cases read
  · cases read

theorem kept_natural {value : Nat} (small : value < UInt64.size) : Kept (.integer value) := by
  apply Kept.integer
  · exact (by decide : Int64.minValue.toInt ≤ 0).trans (Int.natCast_nonneg value)
  · exact Int.ofNat_lt.mpr small

@[simp] theorem kept_uint32 (word : UInt32) : Kept (.integer word.toNat) :=
  kept_natural (word.toNat_lt_size.trans (by decide))

@[simp] theorem kept_uint64 (word : UInt64) : Kept (.integer word.toNat) :=
  kept_natural word.toNat_lt_size

@[simp] theorem kept_int64 (word : Int64) : Kept (.integer word.toInt) :=
  .integer word.minValue_le_toInt (word.toInt_lt.trans (by decide))

theorem kept_map {α : Type} {encode : α → Json} {values : List α}
    (kept : ∀ value ∈ values, Kept (encode value)) : Kept (.array (values.map encode)) := by
  apply Kept.array
  intro item found
  obtain ⟨value, member, rfl⟩ := List.mem_map.mp found
  exact kept value member

/-! ## Lists and records -/

theorem mapM_map {α β : Type} {encode : α → β} {decode : β → Option α} {values : List α}
    (back : ∀ value ∈ values, decode (encode value) = some value) :
    (values.map encode).mapM decode = some values := by
  induction values with
  | nil => rfl
  | cons value values induction =>
      have tail := induction fun later member => back later (List.mem_cons_of_mem _ member)
      rw [List.map_cons, List.mapM_cons, back value List.mem_cons_self, tail]
      rfl

theorem list?_map {α : Type} {encode : α → Json} {decode : Json → Option α} {values : List α}
    (back : ∀ value ∈ values, decode (encode value) = some value) :
    list? decode (.array (values.map encode)) = some values :=
  mapM_map back

theorem exists_of_mem_list? {α : Type} {decode : Json → Option α} {json : Json} {values : List α}
    (read : list? decode json = some values) {value : α} (member : value ∈ values) :
    ∃ item, decode item = some value := by
  cases json with
  | array items =>
      rw [list?] at read
      induction items generalizing values with
      | nil =>
          cases read
          cases member
      | cons item items induction =>
          rw [List.mapM_cons] at read
          obtain ⟨first, firstRead, tailRead⟩ := Option.bind_eq_some_iff.mp read
          obtain ⟨others, othersRead, done⟩ := Option.bind_eq_some_iff.mp tailRead
          cases done
          rcases List.mem_cons.mp member with rfl | later
          · exact ⟨item, firstRead⟩
          · exact induction later othersRead
  | _ => cases read

/-- A value that is there is told from `null`. -/
theorem nullable?_of_ne_null {α : Type} {decode : Json → Option α} {json : Json}
    (present : json ≠ .null) : nullable? decode json = some <$> decode json := by
  cases json <;> first | rfl | exact absurd rfl present

@[simp] theorem nullable?_string (text : String) :
    nullable? string? (.string text) = some (some text) :=
  rfl

/-- A chain of fields is evaluated from its head.  Once it is stated with `Option.bind`, the
fields behind the first one are simplified under their binders, over and over again. -/
theorem some_bind {α β : Type} (value : α) (next : α → Option β) :
    (some value >>= next) = next value :=
  rfl

/-- A written record is read with all its members. -/
theorem record?_object {names : List String} {members : List (String × Json)}
    (inOrder : (members.map Prod.fst).Sublist names) (distinct : names.Nodup) :
    record? names (.object members) = some ⟨members⟩ := by
  have known : members.filter (fun member => names.contains member.1) = members := by
    apply List.filter_eq_self.mpr
    intro member found
    rw [List.contains_iff_mem]
    exact inOrder.subset (List.mem_map_of_mem found)
  unfold record?
  simp only [known]
  rw [if_pos (distinct.sublist inOrder)]

namespace Record

variable {α : Type} (decode : Json → Option α) (name key : String) (value : Json)
  (members : List (String × Json))

theorem exists_of_required {record : Record} {decode : Json → Option α} {name : String} {value : α}
    (read : record.required name decode = some value) : ∃ json, decode json = some value := by
  obtain ⟨json, _, decoded⟩ := Option.bind_eq_some_iff.mp read
  exact ⟨json, decoded⟩

theorem exists_of_optional {record : Record} {decode : Json → Option α} {name : String}
    {default value : α} (read : record.optional name default decode = some value) :
    value = default ∨ ∃ json, decode json = some value := by
  unfold optional at read
  split at read
  · cases read
    exact .inl rfl
  · exact .inr ⟨_, read⟩

/-! The members of a record are asked one after the other for the name of a field. -/

@[simp] theorem required_cons :
    required ⟨(key, value) :: members⟩ name decode =
      if name = key then decode value else required ⟨members⟩ name decode := by
  by_cases same : name = key
  · simp [required, same]
  · have different : (name == key) = false := beq_eq_false_iff_ne.mpr same
    simp [required, List.lookup_cons, same, different]

@[simp] theorem optional_nil (default : α) : optional ⟨[]⟩ name default decode = some default :=
  rfl

@[simp] theorem optional_cons (default : α) :
    optional ⟨(key, value) :: members⟩ name default decode =
      if name = key then decode value else optional ⟨members⟩ name default decode := by
  by_cases same : name = key
  · simp [optional, same]
  · have different : (name == key) = false := beq_eq_false_iff_ne.mpr same
    simp [optional, List.lookup_cons, same, different]

end Record

end KernelTuning.Json
