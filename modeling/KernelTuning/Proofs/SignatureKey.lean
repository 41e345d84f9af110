import KernelTuning.Proofs.FlagText
import KernelTuning.Proofs.TableRecords

/-!
# Signatures as keys

The signature of a problem determines everything about its kernel that the text
mentions, whatever the name of the chip looks like, and nothing else goes into it.
-/

namespace KernelTuning

open Checked

/-! ## Names -/

theorem ElementType.name_injective {type other : ElementType}
    (same : type.name = other.name) : type = other := by
  have read := type.ofName_name
  rw [same, other.ofName_name] at read
  exact (Option.some.inj read).symm

theorem Operation.name_injective {operation other : Operation}
    (same : operation.name = other.name) : operation = other := by
  revert same
  cases operation <;> cases other <;> decide

theorem Epilogue.name_injective {epilogue other : Epilogue}
    (same : epilogue.name = other.name) : epilogue = other := by
  revert same
  cases epilogue <;> cases other <;> decide

theorem ElementType.plain_name (type : ElementType) : Text.Plain type.name := by
  cases type <;> decide

theorem Operation.plain_name (operation : Operation) : Text.Plain operation.name := by
  cases operation <;> decide

theorem Epilogue.plain_name (epilogue : Epilogue) :
    Text.Plain epilogue.name ∧ ',' ∉ epilogue.name.toList := by
  cases epilogue <;> decide

theorem plain_toString_word (word : UInt64) : Text.Plain (toString word) :=
  Text.Plain.number word.toNat

theorem toString_word_injective {word other : UInt64}
    (same : toString word = toString other) : word = other :=
  UInt64.toNat_inj.mp (Text.toString_nat_injective same)

theorem Shape.eq_of_toString_eq {shape other : Shape}
    (g : toString shape.g = toString other.g) (m : toString shape.m = toString other.m)
    (n : toString shape.n = toString other.n) (k : toString shape.k = toString other.k) :
    shape = other := by
  cases shape
  cases other
  rw [Shape.mk.injEq]
  exact ⟨toString_word_injective g, toString_word_injective m,
    toString_word_injective n, toString_word_injective k⟩

namespace Convolution

theorem flags_injective {convolution other : Convolution}
    (same : convolution.flags = other.flags) : convolution = other := by
  cases convolution
  cases other
  simp only [flags, List.cons.injEq, Prod.mk.injEq, true_and, and_true] at same
  obtain ⟨batch, inChannels, inHeight, inWidth, outChannels, filterHeight, filterWidth,
    padHeight, padWidth, strideHeight, strideWidth, dilationHeight, dilationWidth,
    groups⟩ := same
  rw [toString_word_injective batch, toString_word_injective inChannels,
    toString_word_injective inHeight, toString_word_injective inWidth,
    toString_word_injective outChannels, toString_word_injective filterHeight,
    toString_word_injective filterWidth, toString_word_injective padHeight,
    toString_word_injective padWidth, toString_word_injective strideHeight,
    toString_word_injective strideWidth, toString_word_injective dilationHeight,
    toString_word_injective dilationWidth, toString_word_injective groups]

theorem plain_flags (convolution : Convolution) :
    ∀ flag, flag ∈ convolution.flags → Text.Plain flag.1 ∧ Text.Plain flag.2 := by
  simp only [flags, List.forall_mem_cons, plain_toString_word, and_true]
  decide

end Convolution

namespace Problem

/-- Two problems agree on everything that distinguishes one kernel from another. -/
structure Agrees (problem other : Problem) : Prop where
  chip : problem.target.chip = other.target.chip
  computeUnits : problem.target.computeUnits = other.target.computeUnits
  operation : problem.operation = other.operation
  aType : problem.aType = other.aType
  bType : problem.bType = other.bType
  outType : problem.outType = other.outType
  transposeA : problem.transposeA = other.transposeA
  transposeB : problem.transposeB = other.transposeB
  shape : problem.shape = other.shape
  convolution : problem.convolution = other.convolution
  epilogue : problem.epilogue = other.epilogue

/-! ## Plain flags -/

private theorem plain_flagText (flag : Bool) : Text.Plain (flagText flag) := by
  cases flag <;> decide

private theorem plain_commonFlags (problem : Problem) :
    ∀ flag, flag ∈ problem.commonFlags → Text.Plain flag.1 ∧ Text.Plain flag.2 := by
  simp only [commonFlags, List.forall_mem_cons, plain_toString_word, plain_flagText,
    ElementType.plain_name, and_true]
  decide

private theorem plain_epilogueFlags (problem : Problem) :
    ∀ flag, flag ∈ problem.epilogueFlags → Text.Plain flag.1 ∧ Text.Plain flag.2 := by
  unfold epilogueFlags
  split
  · simp
  · intro flag member
    rw [List.mem_singleton.mp member]
    refine ⟨(by decide : Text.Plain "fusion"), .listing ?_⟩
    intro text textMember
    obtain ⟨epilogue, _, rfl⟩ := List.mem_map.mp textMember
    exact epilogue.plain_name.1

theorem plain_flags (problem : Problem) :
    ∀ flag, flag ∈ problem.flags → Text.Plain flag.1 ∧ Text.Plain flag.2 := by
  intro flag member
  simp only [flags, List.mem_append] at member
  rcases member with ((common | operand) | convolution) | epilogue
  · exact problem.plain_commonFlags flag common
  · unfold operandFlags at operand
    split at operand
    · simp at operand
    · rw [List.mem_singleton.mp operand]
      exact ⟨(by decide : Text.Plain "t_b"), problem.bType.plain_name⟩
  · unfold convolutionFlags at convolution
    split at convolution
    · simp at convolution
    · rename_i dimensions _
      exact dimensions.plain_flags flag convolution
  · exact problem.plain_epilogueFlags flag epilogue

/-! ## Reading the flags back -/

/-- The flags behind the common ones. -/
def optionalFlags (problem : Problem) : List (String × String) :=
  problem.operandFlags ++ problem.convolutionFlags ++ problem.epilogueFlags

theorem name_of_mem_operandFlags {problem : Problem} {flag : String × String}
    (member : flag ∈ problem.operandFlags) : flag.1 = "t_b" := by
  unfold operandFlags at member
  split at member <;> simp_all

theorem name_of_mem_epilogueFlags {problem : Problem} {flag : String × String}
    (member : flag ∈ problem.epilogueFlags) : flag.1 = "fusion" := by
  unfold epilogueFlags at member
  split at member <;> simp_all

theorem name_of_mem_convolutionFlags {problem : Problem} {flag : String × String}
    (member : flag ∈ problem.convolutionFlags) : flag.1 ≠ "t_b" ∧ flag.1 ≠ "fusion" := by
  unfold convolutionFlags at member
  split at member
  · simp at member
  · rename_i convolution _
    have names : ∀ flag, flag ∈ convolution.flags →
        flag.1 ≠ "t_b" ∧ flag.1 ≠ "fusion" := by
      simp only [Convolution.flags, List.forall_mem_cons]
      decide
    exact names flag member

private theorem filter_operandFlags (problem : Problem) :
    problem.optionalFlags.filter (·.1 == "t_b") = problem.operandFlags := by
  have operand : problem.operandFlags.filter (·.1 == "t_b") = problem.operandFlags :=
    Text.filter_name_eq_self fun _ member => name_of_mem_operandFlags member
  have convolution : problem.convolutionFlags.filter (·.1 == "t_b") = [] :=
    Text.filter_name_eq_nil fun _ member => (name_of_mem_convolutionFlags member).1
  have epilogue : problem.epilogueFlags.filter (·.1 == "t_b") = [] :=
    Text.filter_name_eq_nil fun _ member => by
      simp [name_of_mem_epilogueFlags member]
  simp [optionalFlags, operand, convolution, epilogue]

private theorem filter_epilogueFlags (problem : Problem) :
    problem.optionalFlags.filter (·.1 == "fusion") = problem.epilogueFlags := by
  have operand : problem.operandFlags.filter (·.1 == "fusion") = [] :=
    Text.filter_name_eq_nil fun _ member => by
      simp [name_of_mem_operandFlags member]
  have convolution : problem.convolutionFlags.filter (·.1 == "fusion") = [] :=
    Text.filter_name_eq_nil fun _ member => (name_of_mem_convolutionFlags member).2
  have epilogue : problem.epilogueFlags.filter (·.1 == "fusion") = problem.epilogueFlags :=
    Text.filter_name_eq_self fun _ member => name_of_mem_epilogueFlags member
  simp [optionalFlags, operand, convolution, epilogue]

private theorem bType_of_operandFlags {problem other : Problem}
    (aType : problem.aType = other.aType)
    (same : problem.operandFlags = other.operandFlags) : problem.bType = other.bType := by
  unfold operandFlags at same
  rw [aType] at same
  split at same <;> split at same
  · rename_i equal otherEqual
    exact equal.trans otherEqual.symm
  · cases same
  · cases same
  · simp only [List.cons.injEq, Prod.mk.injEq, true_and, and_true] at same
    exact ElementType.name_injective same

private theorem convolution_of_convolutionFlags {problem other : Problem}
    (same : problem.convolutionFlags = other.convolutionFlags) :
    problem.convolution = other.convolution := by
  unfold convolutionFlags at same
  cases present : problem.convolution with
  | none =>
      cases otherPresent : other.convolution with
      | none => rfl
      | some otherConvolution =>
          rw [present, otherPresent] at same
          cases same
  | some convolution =>
      cases otherPresent : other.convolution with
      | none =>
          rw [present, otherPresent] at same
          cases same
      | some otherConvolution =>
          rw [present, otherPresent] at same
          exact congrArg some (Convolution.flags_injective same)

private theorem epilogue_of_epilogueFlags {problem other : Problem}
    (same : problem.epilogueFlags = other.epilogueFlags) :
    problem.epilogue = other.epilogue := by
  have commaless : ∀ (epilogue : List Epilogue) (text : String),
      text ∈ epilogue.map Epilogue.name → ',' ∉ text.toList := by
    intro epilogue text member
    obtain ⟨operation, _, rfl⟩ := List.mem_map.mp member
    exact operation.plain_name.2
  unfold epilogueFlags at same
  split at same <;> split at same
  · rename_i empty otherEmpty
    rw [List.isEmpty_iff.mp empty, List.isEmpty_iff.mp otherEmpty]
  · cases same
  · cases same
  · rename_i nonempty otherNonempty
    simp only [List.cons.injEq, Prod.mk.injEq, true_and, and_true] at same
    have names := Text.listing_injective (by simpa using nonempty)
      (by simpa using otherNonempty) (commaless _) (commaless _) same
    exact (List.map_inj_right fun _ _ => Epilogue.name_injective).mp names

private theorem flagText_injective {flag other : Bool}
    (same : flagText flag = flagText other) : flag = other := by
  revert same
  cases flag <;> cases other <;> decide

/-! ## The text as a whole -/

private theorem toList_signatureText (problem : Problem) :
    problem.signatureText.toList =
      (problem.target.chip.toList
          ++ '\t' :: (toString problem.target.computeUnits).toList)
        ++ '\t' :: (problem.operation.name.toList ++ Text.writeFlags problem.flags) := by
  simp [signatureText]

private theorem eq_of_signatureText_eq {problem other : Problem}
    (same : problem.signatureText = other.signatureText) :
    problem.target.chip = other.target.chip ∧
      problem.target.computeUnits = other.target.computeUnits ∧
      problem.operation = other.operation ∧ problem.flags = other.flags := by
  have kernelTabless : ∀ problem : Problem,
      '\t' ∉ problem.operation.name.toList ++ Text.writeFlags problem.flags := by
    intro problem member
    rcases List.mem_append.mp member with inName | inFlags
    · exact problem.operation.plain_name.no_tab inName
    · exact Text.no_tab_writeFlags problem.plain_flags inFlags
  have unitsTabless : ∀ units : UInt32, '\t' ∉ (toString units).toList :=
    fun units => (Text.Plain.number units.toNat).no_tab
  have chars := congrArg String.toList same
  rw [toList_signatureText, toList_signatureText] at chars
  -- The chip may contain anything, so the text is taken apart from its end.
  obtain ⟨front, kernel⟩ :=
    Text.append_separator_inj (kernelTabless problem) (kernelTabless other) chars
  obtain ⟨chip, units⟩ :=
    Text.append_separator_inj (unitsTabless _) (unitsTabless _) front
  have pieces := congrArg (List.splitOn ' ') kernel
  rw [Text.splitOn_writeFlags problem.operation.plain_name.no_blank problem.plain_flags,
    Text.splitOn_writeFlags other.operation.plain_name.no_blank other.plain_flags] at pieces
  obtain ⟨operation, flags⟩ := List.cons.inj pieces
  exact ⟨String.toList_inj.mp chip,
    UInt32.toNat_inj.mp (Text.toString_nat_injective (String.toList_inj.mp units)),
    Operation.name_injective (String.toList_inj.mp operation), Text.words_injective flags⟩

theorem agrees_of_signatureText_eq {problem other : Problem}
    (same : problem.signatureText = other.signatureText) : problem.Agrees other := by
  obtain ⟨chip, computeUnits, operation, flags⟩ := eq_of_signatureText_eq same
  have split : ∀ problem : Problem,
      problem.flags = problem.commonFlags ++ problem.optionalFlags := by
    intro problem
    simp [Problem.flags, optionalFlags]
  rw [split, split] at flags
  obtain ⟨common, optional⟩ := List.append_inj flags rfl
  simp only [commonFlags, List.cons.injEq, Prod.mk.injEq, true_and, and_true] at common
  obtain ⟨aType, outType, transposeA, transposeB, g, m, n, k⟩ := common
  have operand := congrArg (List.filter (·.1 == "t_b")) optional
  have epilogue := congrArg (List.filter (·.1 == "fusion")) optional
  rw [filter_operandFlags, filter_operandFlags] at operand
  rw [filter_epilogueFlags, filter_epilogueFlags] at epilogue
  unfold optionalFlags at optional
  rw [operand, epilogue] at optional
  have convolution := List.append_cancel_left (List.append_cancel_right optional)
  have sameA := ElementType.name_injective aType
  exact
    { chip := chip
      computeUnits := computeUnits
      operation := operation
      aType := sameA
      bType := bType_of_operandFlags sameA operand
      outType := ElementType.name_injective outType
      transposeA := flagText_injective transposeA
      transposeB := flagText_injective transposeB
      shape := Shape.eq_of_toString_eq g m n k
      convolution := convolution_of_convolutionFlags convolution
      epilogue := epilogue_of_epilogueFlags epilogue }

theorem signatureText_eq_of_agrees {problem other : Problem}
    (agrees : problem.Agrees other) : problem.signatureText = other.signatureText := by
  unfold signatureText flags commonFlags operandFlags convolutionFlags epilogueFlags
  rw [agrees.chip, agrees.computeUnits, agrees.operation, agrees.aType, agrees.bType,
    agrees.outType, agrees.transposeA, agrees.transposeB, agrees.shape,
    agrees.convolution, agrees.epilogue]

theorem signatureText_eq_iff {problem other : Problem} :
    problem.signatureText = other.signatureText ↔ problem.Agrees other :=
  ⟨agrees_of_signatureText_eq, signatureText_eq_of_agrees⟩

theorem signature_eq_iff {problem other : Problem}
    (validated : problem.validate = .ok ()) (otherValidated : other.validate = .ok ()) :
    problem.signature = other.signature ↔ problem.Agrees other := by
  unfold signature
  rw [validated, otherValidated]
  simp [signatureText_eq_iff]

/-! ## What tuning leaves alone -/

theorem signature_of_passes_apply {problem configured : Problem} {config : Config}
    (applied : Passes (problem.apply config) configured) :
    configured.signature = problem.signature := by
  obtain ⟨_, rfl⟩ := passes_apply.mp applied
  exact signature_congr (problem.kernel_withConfig config)

theorem signature_of_passes_applyText {problem configured : Problem} {text : String}
    (applied : Passes (problem.applyText text) configured) :
    configured.signature = problem.signature := by
  obtain ⟨config, _, configApplied⟩ := passes_applyText.mp applied
  exact signature_of_passes_apply configApplied

theorem signature_of_applyBest {table : Table} {problem configured : Problem}
    (applied : table.applyBest problem = .ok (true, configured)) :
    configured.signature = problem.signature := by
  obtain ⟨text, _, _, textApplied⟩ := Table.applyBest_eq_true_iff.mp applied
  exact signature_of_passes_applyText textApplied

/-- An update under one problem's signature is invisible under another one. -/
theorem lookup?_update_of_not_agrees
    {problem other : Problem} {table : Table} {key : String} (timing : Timing)
    (otherValidated : other.validate = .ok ()) (differ : ¬problem.Agrees other)
    (signed : problem.signature = .ok key) :
    (table.update key timing).1.lookup? other = table.lookup? other := by
  have text : problem.signatureText = key := (signature_eq_ok_iff.mp signed).2
  have otherSigned : other.signature = .ok other.signatureText :=
    signature_eq_ok_iff.mpr ⟨otherValidated, rfl⟩
  have distinct : other.signatureText ≠ key := by
    intro same
    exact differ (agrees_of_signatureText_eq (text.trans same.symm))
  rw [Table.lookup?_of_signature otherSigned, Table.lookup?_of_signature otherSigned,
    Table.find?_update]
  simp [distinct]

/-- A problem that can be tuned has a signature, which stands for exactly the fields
that distinguish kernels: problems that agree on them share it, problems that do not
never meet in a table, and no configuration that is applied changes it. -/
theorem signature_faithful
    (problem other : Problem)
    (validated : problem.validate = .ok ()) (otherValidated : other.validate = .ok ()) :
    (∃ key, problem.signature = .ok key) ∧
      (problem.signature = other.signature ↔ problem.Agrees other) ∧
      (∀ prefill auxiliaryBuffers config,
        { problem with
          prefill := prefill
          auxiliaryBuffers := auxiliaryBuffers
          config := config }.signature = problem.signature) ∧
      (∀ config configured, Passes (problem.apply config) configured →
        configured.signature = problem.signature) ∧
      (∀ text configured, Passes (problem.applyText text) configured →
        configured.signature = problem.signature) ∧
      (∀ (table : Table) configured, table.applyBest problem = .ok (true, configured) →
        configured.signature = problem.signature) ∧
      (¬problem.Agrees other → ∀ (table : Table) key timing,
        problem.signature = .ok key →
          (table.update key timing).1.lookup? other = table.lookup? other) := by
  refine ⟨⟨_, signature_eq_ok_iff.mpr ⟨validated, rfl⟩⟩,
    signature_eq_iff validated otherValidated, ?_, ?_, ?_, ?_, ?_⟩
  · intro prefill auxiliaryBuffers config
    exact signature_congr rfl
  · intro config configured applied
    exact signature_of_passes_apply applied
  · intro text configured applied
    exact signature_of_passes_applyText applied
  · intro table configured applied
    exact signature_of_applyBest applied
  · intro differ table key timing signed
    exact lookup?_update_of_not_agrees timing otherValidated differ signed

/-- A chip name may look like the rest of a signature. -/
theorem signature_faithful_tabbedChip :
    let shape : Shape := ⟨1, 64, 64, 64⟩
    let plain := gemm shape .f32 ⟨"gfx90a", .cdna2, 64, 104, 65536⟩
    let tabbed := gemm shape .f32 ⟨"gfx90a\t104\tgemm -t f32", .cdna2, 64, 104, 65536⟩
    plain.validate = .ok () ∧ tabbed.validate = .ok () ∧
      plain.signature ≠ tabbed.signature := by
  refine ⟨rfl, rfl, ?_⟩
  intro same
  have agrees := (signature_faithful _ _ rfl rfl).2.1.mp same
  exact absurd agrees.chip (by decide)

end Problem

end KernelTuning
