import KernelTuning.Proofs.AppliedCommands
import KernelTuning.Proofs.ProblemText
import KernelTuning.Proofs.ResultPrefill

/-!
# Printed problems

A problem is written without blanks for a host, and laid out with a line break behind it by
the command that applies a configuration.  Each of these texts is read as the problem
itself, so the problem that has been read is tuned like the one that was written.

Main statement: `Problem.texts_read`.
-/

namespace KernelTuning

private theorem CommandLine.outputOf_singleton (line : String) : outputOf [line] = line ++ "\n" := by
  simp [outputOf, String.join]

namespace Problem

open CommandLine (Command Configures Describes ProblemOptions run)
open Json (ReadsRounded)

/-- The texts that a problem is written as. -/
def texts (problem : Problem) : List String :=
  [problem.toJson.compact, problem.toJson.pretty,
    CommandLine.outputOf [problem.toJson.pretty]]

theorem parse?_of_mem_texts {problem : Problem}
    (finite : ∀ number ∈ problem.floats, number.isFinite = true)
    (rounded : ∀ number ∈ problem.floats, ReadsRounded number) :
    ∀ text ∈ problem.texts, parse? text = some problem := by
  have kept := kept_toJson finite rounded
  have printed : CommandLine.outputOf [problem.toJson.pretty] =
      String.ofList (Json.write .pretty 0 problem.toJson ++ ['\n']) := by
    rw [CommandLine.outputOf_singleton, Json.pretty, String.ofList_append]
  have read : ∀ text ∈ problem.texts, Json.parse? text = some problem.toJson := by
    intro text member
    simp only [texts, List.mem_cons, List.not_mem_nil, or_false] at member
    rcases member with rfl | rfl | rfl
    · exact Json.parse?_compact kept
    · exact Json.parse?_pretty kept
    · rw [printed]
      exact Json.parse?_write Json.Layout.isBlank_pretty kept ['\n'] (by simp [Json.Token.isBlank])
  intro text member
  rw [parse?, read text member]
  exact ofJson?_toJson finite

/-! ## Configured problems -/

private theorem eq_zero_of_zeroOf {type : ElementType} {number : Binary64}
    (float : (InitialValue.zeroOf type).float? = some number) : number = .zero := by
  unfold InitialValue.zeroOf at float
  split at float
  · cases float
  · exact (Option.some.inj float).symm

/-- The request for the result is all that a configuration adds. -/
theorem mem_floats_withConfig {problem : Problem} {config : Config} {number : Binary64}
    (member : number ∈ (problem.withConfig config).floats) :
    number ∈ problem.floats ∨ number = .zero := by
  obtain ⟨value, filled, float⟩ := List.mem_filterMap.mp member
  rcases List.mem_append.mp filled with inPrefill | inBuffer
  · obtain ⟨request, requested, rfl⟩ := List.mem_map.mp inPrefill
    rw [prefill_withConfig] at requested
    rcases mem_setResultPrefill requested with kept | added
    · have carried : request.value ∈ problem.initialValues :=
        List.mem_append_left _ (List.mem_map_of_mem kept)
      exact .inl (List.mem_filterMap.mpr ⟨request.value, carried, float⟩)
    · unfold resultPrefill at added
      split at added
      · rw [← Option.some.inj added] at float
        exact .inr (eq_zero_of_zeroOf float)
      · cases added
  · rw [withConfig_eq] at inBuffer
    exact .inl (List.mem_filterMap.mpr ⟨value, List.mem_append_right _ inBuffer, float⟩)

theorem isFinite_of_describes {store : FileStore} {options : ProblemOptions} {problem : Problem}
    (described : Describes store options problem) :
    ∀ number ∈ problem.floats, number.isFinite = true := by
  cases described with
  | file _ _ read => exact isFinite_of_parse? read
  | product => exact fun number member => nomatch member

private theorem exists_withConfig_of_configures {store : FileStore} {table config : Option String}
    {problem configured : Problem} (configures : Configures store table config problem configured) :
    ∃ entry, configured = problem.withConfig entry := by
  have ofText : ∀ {text}, Checked.Passes (problem.applyText text) configured →
      ∃ entry, configured = problem.withConfig entry := by
    intro text applied
    obtain ⟨entry, -, passes⟩ := passes_applyText.mp applied
    exact ⟨entry, (passes_apply.mp passes).2.symm⟩
  cases configures with
  | given _ applied => exact ofText applied
  | recorded _ _ _ applied =>
      obtain ⟨text, -, -, passes⟩ := Table.applyBest_eq_true_iff.mp applied
      exact ofText passes

/-- A problem survives its texts, as far as its floating numbers are finite and their texts
are read correctly rounded.  A problem that has itself been read has only finite numbers, so
writing brings its text into a normal form; the problem that is read from it is valid as the
original is, and has its signature and its tuning spaces.  The command that applies a
configuration succeeds exactly if there is a problem that it configures, and what it prints is
read as the configured problem. -/
theorem texts_read :
    (∀ problem : Problem, (∀ number ∈ problem.floats, ReadsRounded number) →
      ((∀ number ∈ problem.floats, number.isFinite = true) →
        ∀ text ∈ problem.texts, parse? text = some problem) ∧
      ∀ source, parse? source = some problem →
        ∀ text ∈ problem.texts, ∃ reread, parse? text = some reread ∧ reread = problem ∧
          reread.validate = problem.validate ∧ reread.signature = problem.signature ∧
          ∀ level, Space.build reread level = Space.build problem level) ∧
    ∀ store words options table config,
      Command.ofWords? words = some (.apply options table config) →
      ((run store words).code = 0 ↔ ∃ problem configured,
        Describes store options problem ∧ Configures store table config problem configured) ∧
      ∀ problem configured, Describes store options problem →
        Configures store table config problem configured →
        (∀ number ∈ problem.floats, ReadsRounded number) →
        parse? (run store words).output = some configured := by
  refine ⟨fun problem rounded => ⟨?_, ?_⟩, fun store words options table config read =>
    ⟨CommandLine.code_run_apply_iff read, ?_⟩⟩
  · intro finite
    exact parse?_of_mem_texts finite rounded
  · intro source read text member
    have again := parse?_of_mem_texts (isFinite_of_parse? read) rounded text member
    exact ⟨problem, again, rfl, rfl, rfl, fun _ => rfl⟩
  · intro problem configured described configures rounded
    obtain ⟨entry, rfl⟩ := exists_withConfig_of_configures configures
    rw [CommandLine.output_run_apply read described configures]
    apply parse?_of_mem_texts
    · intro number member
      rcases mem_floats_withConfig member with kept | rfl
      · exact isFinite_of_describes described number kept
      · decide
    · intro number member
      rcases mem_floats_withConfig member with kept | rfl
      · exact rounded number kept
      · decide +kernel
    · simp [texts]

/-- A convolution with every field filled: the extreme words, texts that need escapes, and
numbers with all their digits. -/
def filledConvolution : Problem :=
  { operation := .convolution
    shape := ⟨1, 18446744073709551615, 64, 288⟩
    convolution := some
      { batch := 1, inChannels := 32, outChannels := 64, inHeight := 7, inWidth := 7
        filterHeight := 3, filterWidth := 3, padHeight := 1, padWidth := 1, groups := 1 }
    aType := .bf16
    bType := .f16
    outType := .i32
    transposeB := true
    target := ⟨"gfx\"90\\ \x1fé", .cdna3, 64, 4294967295, 65536⟩
    epilogue := [.biasAdd, .relu, .relu]
    prefill := [⟨2, .float ⟨0x3fb999999999999a⟩⟩, ⟨18446744073709551615, .int Int64.minValue⟩]
    auxiliaryBuffers := [⟨4096, .float ⟨0x8000000000000000⟩⟩, ⟨0, .int 0⟩]
    config := some "" }

/-- A product with a long reduction, and requests that are out of order. -/
def longProduct : Problem :=
  { gemm ⟨1, 256, 256, 8192⟩ .f32 ⟨"gfx90a", .cdna2, 64, 104, 65536⟩ with
    prefill := [⟨7, .float ⟨0x3fb999999999999a⟩⟩, ⟨2, .int 5⟩] }

/-- A directory with a written product. -/
def productStore : FileStore :=
  { files := [(["product.json"], longProduct.toJson.compact)] }

/-- The words that apply a configuration with a split reduction to the written product. -/
def productWords : List String :=
  ["apply", "--problem-file", "product.json", "--perf-config", "v2:64,64,8,32,32,4,4,1,1"]

/-- The other options have their defaults. -/
def productOptions : ProblemOptions :=
  ⟨some "product.json", "gfx90a", none, "f16", none, false, false, ⟨1, 1024, 1024, 1024⟩, []⟩

theorem texts_read_filledConvolution :
    (parse? filledConvolution.toJson.compact = some filledConvolution ∧
      parse? filledConvolution.toJson.pretty = some filledConvolution) ∧
    Command.ofWords? productWords =
      some (.apply productOptions none (some "v2:64,64,8,32,32,4,4,1,1")) ∧
    (run productStore productWords).code = 0 ∧
    parse? (run productStore productWords).output =
      some (longProduct.withConfig (.matrix ⟨64, 64, 8, 32, 32, 4, 4, true, true⟩)) := by
  obtain ⟨written, applied⟩ := texts_read
  have filledRounded : ∀ number ∈ filledConvolution.floats, ReadsRounded number :=
    @of_decide_eq_true _ (List.decidableBAll _ _) (by decide +kernel)
  have filledFinite : ∀ number ∈ filledConvolution.floats, number.isFinite = true :=
    @of_decide_eq_true _ (List.decidableBAll _ _) (by decide +kernel)
  have filledRead := (written filledConvolution filledRounded).1 filledFinite
  have rounded : ∀ number ∈ longProduct.floats, ReadsRounded number :=
    @of_decide_eq_true _ (List.decidableBAll _ _) (by decide +kernel)
  have finite : ∀ number ∈ longProduct.floats, number.isFinite = true :=
    @of_decide_eq_true _ (List.decidableBAll _ _) (by decide +kernel)
  have command : Command.ofWords? productWords =
      some (.apply productOptions none (some "v2:64,64,8,32,32,4,4,1,1")) := by
    decide +kernel
  have described : Describes productStore productOptions longProduct :=
    .file rfl (rfl : productStore.read "product.json" = .ok longProduct.toJson.compact)
      ((written longProduct rounded).1 finite _ (by simp [texts]))
  have accepted : longProduct.Accepts (.matrix ⟨64, 64, 8, 32, 32, 4, 4, true, true⟩) := by
    decide
  have configures : Configures productStore none (some "v2:64,64,8,32,32,4,4,1,1") longProduct
      (longProduct.withConfig (.matrix ⟨64, 64, 8, 32, 32, 4, 4, true, true⟩)) :=
    .given (by decide) (accepted.passes_applyText (by decide))
  obtain ⟨succeeds, printed⟩ := applied productStore _ _ _ _ command
  exact ⟨⟨filledRead _ (by simp [texts]), filledRead _ (by simp [texts])⟩, command,
    succeeds.mpr ⟨_, _, described, configures⟩, printed _ _ described configures rounded⟩

end Problem

end KernelTuning
