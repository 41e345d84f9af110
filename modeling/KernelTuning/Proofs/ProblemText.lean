import KernelTuning.Problem.Json
import KernelTuning.Proofs.JsonRecords
import KernelTuning.Proofs.JsonText

/-!
# Problems and their JSON forms

Each part of a problem is decoded from the form in which it is written, and so is the whole.
The floating initial values are the only data that a text could lose: they have to be finite,
which those that have been read always are, and to be read correctly rounded.
-/

namespace KernelTuning

open Json (Kept ReadsRounded record?_object)

/-! ## Parts of a problem -/

theorem ElementType.ofJson?_toJson (type : ElementType) : ofJson? type.toJson = some type := by
  cases type <;> decide

theorem Generation.ofJson?_toJson (generation : Generation) :
    ofJson? generation.toJson = some generation := by
  cases generation <;> decide

theorem Operation.ofJson?_toJson (operation : Operation) :
    ofJson? operation.toJson = some operation := by
  cases operation <;> decide

theorem Epilogue.ofJson?_toJson (epilogue : Epilogue) :
    ofJson? epilogue.toJson = some epilogue := by
  cases epilogue <;> decide

theorem Target.ofJson?_toJson (target : Target) : ofJson? target.toJson = some target := by
  have record : target.toJson.record? ["name", "family", "wave_size", "num_cu", "lds_bytes"] =
      some ⟨_⟩ := record?_object (List.Sublist.refl _) (by decide)
  rw [ofJson?, record]
  simp [Generation.ofJson?_toJson]

theorem Shape.ofJson?_toJson (shape : Shape) : ofJson? shape.toJson = some shape := by
  have record : shape.toJson.record? ["g", "m", "n", "k"] = some ⟨_⟩ :=
    record?_object (List.Sublist.refl _) (by decide)
  rw [ofJson?, record]
  simp

theorem Convolution.ofJson?_toJson (convolution : Convolution) :
    ofJson? convolution.toJson = some convolution := by
  have record : convolution.toJson.record?
      ["batch", "in_channels", "out_channels", "in_h", "in_w", "filter_h", "filter_w",
        "stride_h", "stride_w", "pad_h", "pad_w", "dilation_h", "dilation_w", "groups"] =
      some ⟨_⟩ := record?_object (List.Sublist.refl _) (by decide)
  rw [ofJson?, record]
  simp only [Json.Record.required_cons, Json.Record.optional_cons, String.reduceEq, ↓reduceIte,
    Json.uint64?_toNat, Json.some_bind, Option.pure_def]

theorem Target.kept_toJson (target : Target) : Kept target.toJson := by
  apply Kept.object
  simp [Kept.string, Generation.toJson]

theorem Shape.kept_toJson (shape : Shape) : Kept shape.toJson := by
  apply Kept.object
  simp

theorem Convolution.kept_toJson (convolution : Convolution) : Kept convolution.toJson := by
  apply Kept.object
  simp

theorem Operation.kept_toJson (operation : Operation) : Kept operation.toJson := by
  cases operation <;> exact Kept.string _

/-- The floating number of a value, if it is one. -/
def InitialValue.float? : InitialValue → Option Binary64
  | .int _ => none
  | .float value => some value

theorem InitialValue.ofJson?_toJson {value : InitialValue}
    (finite : ∀ number, value.float? = some number → number.isFinite = true) :
    ofJson? value.toJson = some value := by
  cases value with
  | int value => simp [toJson, ofJson?]
  | float value => simp [toJson, ofJson?, Json.binary64?_float (finite value rfl)]

theorem InitialValue.kept_toJson {value : InitialValue}
    (finite : ∀ number, value.float? = some number → number.isFinite = true)
    (rounded : ∀ number, value.float? = some number → ReadsRounded number) :
    Kept value.toJson := by
  cases value with
  | int value =>
      apply Kept.object
      simp
  | float value =>
      apply Kept.object
      simp [Kept.float (finite value rfl) (rounded value rfl)]

theorem InitialValue.isFinite_of_ofJson? {json : Json} {value : InitialValue}
    (read : ofJson? json = some value) {number : Binary64} (float : value.float? = some number) :
    number.isFinite = true := by
  unfold ofJson? at read
  split at read
  · obtain ⟨word, _, rfl⟩ := Option.map_eq_some_iff.mp read
    cases float
  · obtain ⟨found, decoded, rfl⟩ := Option.map_eq_some_iff.mp read
    cases float
    exact Json.isFinite_of_binary64? decoded
  · cases read

theorem Prefill.ofJson?_toJson {prefill : Prefill}
    (finite : ∀ number, prefill.value.float? = some number → number.isFinite = true) :
    ofJson? prefill.toJson = some prefill := by
  have record : prefill.toJson.record? ["arg_index", "init_value"] = some ⟨_⟩ :=
    record?_object (List.Sublist.refl _) (by decide)
  rw [ofJson?, record]
  simp [InitialValue.ofJson?_toJson finite]

theorem AuxiliaryBuffer.ofJson?_toJson {buffer : AuxiliaryBuffer}
    (finite : ∀ number, buffer.value.float? = some number → number.isFinite = true) :
    ofJson? buffer.toJson = some buffer := by
  have record : buffer.toJson.record? ["size_bytes", "init_value"] = some ⟨_⟩ :=
    record?_object (List.Sublist.refl _) (by decide)
  rw [ofJson?, record]
  simp [InitialValue.ofJson?_toJson finite]

private theorem Prefill.exists_value_of_ofJson? {json : Json} {prefill : Prefill}
    (read : ofJson? json = some prefill) :
    ∃ written, InitialValue.ofJson? written = some prefill.value := by
  simp only [ofJson?, Option.bind_eq_bind, Option.bind_eq_some_iff, Option.pure_def] at read
  obtain ⟨record, _, argument, _, value, valueRead, done⟩ := read
  cases done
  exact Json.Record.exists_of_required valueRead

private theorem AuxiliaryBuffer.exists_value_of_ofJson? {json : Json} {buffer : AuxiliaryBuffer}
    (read : ofJson? json = some buffer) :
    ∃ written, InitialValue.ofJson? written = some buffer.value := by
  simp only [ofJson?, Option.bind_eq_bind, Option.bind_eq_some_iff, Option.pure_def] at read
  obtain ⟨record, _, bytes, _, value, valueRead, done⟩ := read
  cases done
  exact Json.Record.exists_of_required valueRead

namespace Problem

/-- The values that buffers are filled with. -/
def initialValues (problem : Problem) : List InitialValue :=
  problem.prefill.map Prefill.value ++ problem.auxiliaryBuffers.map AuxiliaryBuffer.value

/-- The floating numbers of a problem. -/
def floats (problem : Problem) : List Binary64 :=
  problem.initialValues.filterMap InitialValue.float?

/-- The members of a written problem. -/
def members (problem : Problem) : List (String × Json) :=
  [("op", problem.operation.toJson),
    ("shape", problem.shape.toJson)]
  ++ (problem.convolution.map fun convolution => ("conv", convolution.toJson)).toList
  ++ [("a_type", problem.aType.toJson),
    ("b_type", problem.bType.toJson),
    ("out_type", problem.outType.toJson),
    ("transpose_a", .boolean problem.transposeA),
    ("transpose_b", .boolean problem.transposeB),
    ("arch", problem.target.toJson),
    ("epilogue", .array (problem.epilogue.map Epilogue.toJson)),
    ("prefill", .array (problem.prefill.map Prefill.toJson)),
    ("aux_buffers", .array (problem.auxiliaryBuffers.map AuxiliaryBuffer.toJson))]
  ++ (problem.config.map fun config => ("perf_config", Json.string config)).toList

theorem toJson_eq (problem : Problem) : problem.toJson = .object problem.members :=
  rfl

/-- The names under which a problem is written. -/
def writtenNames (convolved configured : Bool) : List String :=
  ["op", "shape"] ++ (if convolved then ["conv"] else [])
    ++ ["a_type", "b_type", "out_type", "transpose_a", "transpose_b", "arch", "epilogue",
      "prefill", "aux_buffers"]
    ++ (if configured then ["perf_config"] else [])

private theorem keys_members (problem : Problem) :
    problem.members.map Prod.fst =
      writtenNames problem.convolution.isSome problem.config.isSome := by
  unfold members
  cases problem.convolution <;> cases problem.config <;> rfl

theorem record?_toJson (problem : Problem) :
    problem.toJson.record? fieldNames = some ⟨problem.members⟩ := by
  have inOrder : ∀ convolved configured,
      (writtenNames convolved configured).Sublist fieldNames := by
    decide
  rw [toJson_eq]
  apply record?_object _ (by decide)
  rw [keys_members]
  exact inOrder _ _

theorem ofJson?_toJson {problem : Problem}
    (finite : ∀ number ∈ problem.floats, number.isFinite = true) :
    ofJson? problem.toJson = some problem := by
  have filled : ∀ value ∈ problem.initialValues, ∀ number, value.float? = some number →
      number.isFinite = true := by
    intro value member number float
    exact finite number (List.mem_filterMap.mpr ⟨value, member, float⟩)
  have epilogueBack : Json.list? Epilogue.ofJson? (.array (problem.epilogue.map Epilogue.toJson)) =
      some problem.epilogue :=
    Json.list?_map fun value _ => value.ofJson?_toJson
  have prefillBack : Json.list? Prefill.ofJson? (.array (problem.prefill.map Prefill.toJson)) =
      some problem.prefill :=
    Json.list?_map fun value member => Prefill.ofJson?_toJson
      (filled value.value (List.mem_append_left _ (List.mem_map_of_mem member)))
  have buffersBack : Json.list? AuxiliaryBuffer.ofJson?
      (.array (problem.auxiliaryBuffers.map AuxiliaryBuffer.toJson)) =
      some problem.auxiliaryBuffers :=
    Json.list?_map fun value member => AuxiliaryBuffer.ofJson?_toJson
      (filled value.value (List.mem_append_right _ (List.mem_map_of_mem member)))
  have convolutionBack : ∀ convolution : Convolution,
      Json.nullable? Convolution.ofJson? convolution.toJson = some (some convolution) := by
    intro convolution
    rw [Json.nullable?_of_ne_null (by simp [Convolution.toJson]), convolution.ofJson?_toJson]
    rfl
  rw [ofJson?, record?_toJson]
  -- Only the two fields that may be absent decide which members there are.
  obtain ⟨operation, shape, convolution, aType, bType, outType, transposeA, transposeB, target,
    epilogue, prefill, auxiliaryBuffers, config⟩ := problem
  cases convolution <;> cases config <;>
    simp only [members, Option.map_none, Option.map_some, Option.toList_none, Option.toList_some,
      List.cons_append, List.nil_append, List.append_nil, Json.Record.required_cons,
      Json.Record.optional_cons, Json.Record.optional_nil, String.reduceEq, ↓reduceIte,
      Json.boolean?_boolean, Json.nullable?_string, Operation.ofJson?_toJson, Shape.ofJson?_toJson,
      ElementType.ofJson?_toJson, Target.ofJson?_toJson, convolutionBack, epilogueBack,
      prefillBack, buffersBack, Json.some_bind, Option.pure_def]

theorem kept_toJson {problem : Problem}
    (finite : ∀ number ∈ problem.floats, number.isFinite = true)
    (rounded : ∀ number ∈ problem.floats, ReadsRounded number) : Kept problem.toJson := by
  have filled : ∀ value ∈ problem.initialValues, Kept value.toJson := by
    intro value member
    have floats : ∀ number, value.float? = some number → number ∈ problem.floats :=
      fun number float => List.mem_filterMap.mpr ⟨value, member, float⟩
    exact InitialValue.kept_toJson (fun number float => finite number (floats number float))
      fun number float => rounded number (floats number float)
  have epilogueKept : Kept (.array (problem.epilogue.map Epilogue.toJson)) :=
    Json.kept_map fun _ _ => Kept.string _
  have prefillKept : Kept (.array (problem.prefill.map Prefill.toJson)) := by
    apply Json.kept_map
    intro prefill member
    apply Kept.object
    simp [filled prefill.value (List.mem_append_left _ (List.mem_map_of_mem member))]
  have buffersKept : Kept (.array (problem.auxiliaryBuffers.map AuxiliaryBuffer.toJson)) := by
    apply Json.kept_map
    intro buffer member
    apply Kept.object
    simp [filled buffer.value (List.mem_append_right _ (List.mem_map_of_mem member))]
  rw [toJson_eq]
  apply Kept.object
  cases convolved : problem.convolution <;> cases configured : problem.config <;>
    simp [members, convolved, configured, Operation.kept_toJson, Shape.kept_toJson,
      ElementType.toJson, Kept.boolean, Kept.string, Target.kept_toJson, epilogueKept, prefillKept,
      buffersKept, Convolution.kept_toJson]

/-- Every value of a problem that has been read was read as a value. -/
private theorem exists_value_of_ofJson? {json : Json} {problem : Problem}
    (read : ofJson? json = some problem) {value : InitialValue}
    (member : value ∈ problem.initialValues) :
    ∃ written, InitialValue.ofJson? written = some value := by
  rw [ofJson?] at read
  -- Before the two lists that hold values stand the record itself and ten fields.
  iterate 11 obtain ⟨_, _, read⟩ := Option.bind_eq_some_iff.mp read
  obtain ⟨prefills, prefillsRead, read⟩ := Option.bind_eq_some_iff.mp read
  obtain ⟨buffers, buffersRead, read⟩ := Option.bind_eq_some_iff.mp read
  obtain ⟨config, _, done⟩ := Option.bind_eq_some_iff.mp read
  cases done
  rcases List.mem_append.mp member with inPrefill | inBuffer
  · obtain ⟨prefill, found, rfl⟩ := List.mem_map.mp inPrefill
    rcases Json.Record.exists_of_optional prefillsRead with absent | ⟨list, listRead⟩
    · simp [absent] at found
    · obtain ⟨item, itemRead⟩ := Json.exists_of_mem_list? listRead found
      exact Prefill.exists_value_of_ofJson? itemRead
  · obtain ⟨buffer, found, rfl⟩ := List.mem_map.mp inBuffer
    rcases Json.Record.exists_of_optional buffersRead with absent | ⟨list, listRead⟩
    · simp [absent] at found
    · obtain ⟨item, itemRead⟩ := Json.exists_of_mem_list? listRead found
      exact AuxiliaryBuffer.exists_value_of_ofJson? itemRead

/-- A problem that has been read has no infinite or undefined number. -/
theorem isFinite_of_parse? {text : String} {problem : Problem}
    (read : parse? text = some problem) :
    ∀ number ∈ problem.floats, number.isFinite = true := by
  intro number float
  obtain ⟨json, _, decoded⟩ := Option.bind_eq_some_iff.mp read
  obtain ⟨value, member, isFloat⟩ := List.mem_filterMap.mp float
  obtain ⟨written, valueRead⟩ := exists_value_of_ofJson? decoded member
  exact InitialValue.isFinite_of_ofJson? valueRead isFloat

end Problem

end KernelTuning
