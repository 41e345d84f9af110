import KernelTuning.Proofs.SignatureKey
import KernelTuning.Proofs.TuningSpace
import KernelTuning.Tuner

/-!
# Tuned tables

A table that has only been written to by tuning can be read back without failures:
each record suits every problem with its signature, not only the one that was being
tuned.  Targets are resolved from names here, so that the name of a chip settles its
capacities.
-/

namespace KernelTuning

open Checked

namespace Target

/-- The target was resolved from a name; compute units may have been replaced since. -/
def IsKnown (target : Target) : Prop :=
  ∃ name resolved computeUnits, ofName name = .ok resolved ∧
    target = resolved.withComputeUnits computeUnits

theorem IsKnown.capacities {target : Target} (known : target.IsKnown) :
    Generation.ofChip? target.chip.toList = some target.generation ∧
      target.waveSize = target.generation.waveSize ∧
      target.ldsBytes = workgroupLdsBytes := by
  obtain ⟨name, resolved, computeUnits, found, rfl⟩ := known
  unfold ofName at found
  simp only at found
  split at found
  · cases found
  · rename_i generation settles
    cases found
    refine ⟨?_, rfl, rfl⟩
    simpa [withComputeUnits] using settles

theorem IsKnown.eq_of_chip {target other : Target}
    (known : target.IsKnown) (otherKnown : other.IsKnown)
    (chip : target.chip = other.chip)
    (computeUnits : target.computeUnits = other.computeUnits) : target = other := by
  obtain ⟨settles, waveSize, ldsBytes⟩ := known.capacities
  obtain ⟨otherSettles, otherWaveSize, otherLdsBytes⟩ := otherKnown.capacities
  have generation : target.generation = other.generation := by
    rw [chip, otherSettles] at settles
    exact (Option.some.inj settles).symm
  cases target
  cases other
  simp only at *
  subst chip computeUnits generation
  rw [waveSize, ldsBytes, otherWaveSize, otherLdsBytes]

end Target

namespace Problem

/-- Between known targets the fields in the signature settle the whole kernel. -/
private theorem kernel_eq_of_agrees {problem other : Problem}
    (known : problem.target.IsKnown) (otherKnown : other.target.IsKnown)
    (agrees : problem.Agrees other) : problem.kernel = other.kernel := by
  have target := known.eq_of_chip otherKnown agrees.chip agrees.computeUnits
  unfold kernel
  rw [agrees.operation, agrees.shape, agrees.convolution, agrees.aType, agrees.bType,
    agrees.outType, agrees.transposeA, agrees.transposeB, target, agrees.epilogue]

theorem kernel_eq_of_signature_eq {problem other : Problem} {key : String}
    (known : problem.target.IsKnown) (otherKnown : other.target.IsKnown)
    (signed : problem.signature = .ok key) (otherSigned : other.signature = .ok key) :
    problem.kernel = other.kernel := by
  have validated := (signature_eq_ok_iff.mp signed).1
  have otherValidated := (signature_eq_ok_iff.mp otherSigned).1
  have agrees : problem.Agrees other :=
    (signature_eq_iff validated otherValidated).mp (signed.trans otherSigned.symm)
  exact kernel_eq_of_agrees known otherKnown agrees

theorem canFuse_congr {problem other : Problem} (config : Config)
    (same : problem.kernel = other.kernel) :
    problem.canFuse config = other.canFuse config := by
  have epilogue : problem.kernel.epilogue = other.kernel.epilogue := by
    rw [same]
  unfold canFuse epilogueDistributes
  exact congrArg (config.splitK == 1 || List.all · _) epilogue

/-- The configuration can be recorded for the problem and applied to it later. -/
structure Records (problem : Problem) (config : Config) : Prop where
  positive : config.Positive
  accepted : problem.Accepts config
  fusible : problem.canFuse config = true

theorem Records.congr {problem other : Problem} {config : Config}
    (same : problem.kernel = other.kernel) (records : problem.Records config) :
    other.Records config where
  positive := records.positive
  accepted := (accepts_congr same).mp records.accepted
  fusible := by
    rw [← canFuse_congr config same]
    exact records.fusible

theorem Records.applyBest {table : Table} {problem : Problem} {config : Config}
    (records : problem.Records config)
    (recorded : table.lookup? problem = some config.encode) :
    table.applyBest problem = .ok (true, problem.withConfig config) := by
  have readable : Config.decode config.encode = .ok config :=
    Config.decode_encode records.positive
  apply Table.applyBest_eq_true_iff.mpr
  refine ⟨config.encode, recorded, ?_, ?_⟩
  · exact canFuseText_iff.mpr ⟨config, readable, records.fusible⟩
  · exact records.accepted.passes_applyText records.positive

end Problem

namespace Tuner

theorem records_of_mem_candidates
    {options : TunerOptions} {problem : Problem} {level : Level} {space : Space}
    {config : Config}
    (built : Space.build problem level = .ok space)
    (member : config ∈ candidates options problem space) : problem.Records config := by
  have fusible : config ∈ space.valid.filter problem.canFuse := by
    unfold candidates at member
    simp only at member
    split at member
    · exact member
    · exact List.mem_of_mem_take member
  obtain ⟨valid, canFuse⟩ := List.mem_filter.mp fusible
  exact
    { positive := (Space.modest_of_mem_valid built valid).positive
      accepted := (Space.suits_of_mem_valid built valid).accepted
      fusible := canFuse }

/-- The mean of runs that take the same time: their sum, added up from the left, divided by
their number. -/
def average (runs : Nat) (time : Binary64) : Binary64 :=
  .ofFloat ((List.replicate runs time.toFloat).foldl (· + ·) 0.0 / (UInt64.ofNat runs).toFloat)

private theorem mean_eq_average (runs : Nat) (time : Binary64) :
    mean runs time = average runs time := by
  have total : ∀ runs : Nat, runs.fold (fun _ _ total => total + time.toFloat) (0.0 : Float) =
      (List.replicate runs time.toFloat).foldl (· + ·) 0.0 := by
    intro runs
    induction runs with
    | zero => rfl
    | succ runs induction =>
        rw [Nat.fold_succ, induction, List.replicate_succ', List.foldl_append]
        rfl
  unfold mean average
  rw [total]

/-- The mean time of a configuration, unless the benchmark fails on the problem with the
configuration attached. -/
def meanTime
    (options : TunerOptions) (benchmark : Benchmark) (problem : Problem)
    (config : Config) : Option Binary64 :=
  (benchmark (problem.withConfig config)).map (average (max options.runs 1))

theorem measure_eq_meanTime
    (options : TunerOptions) (benchmark : Benchmark) {problem : Problem} {config : Config}
    (records : problem.Records config) :
    measure options benchmark problem config =
      .ok (meanTime options benchmark problem config) := by
  have applied : Passes (problem.apply config) (problem.withConfig config) :=
    records.accepted.passes_apply
  unfold measure meanTime
  rw [applied, ← funext (mean_eq_average _)]
  rfl

/-- A sweep never stops with a fault, and keeps what each record keeps. -/
theorem exists_sweep
    (options : TunerOptions) (benchmark : Benchmark) (key : String) (table : Table)
    {problem : Problem} {configs : List Config} (invariant : Sweep → Prop)
    (records : ∀ config, config ∈ configs → problem.Records config)
    (advance : ∀ swept config time, config ∈ configs → invariant swept →
      invariant (swept.record key config time))
    (start : invariant { table := table }) :
    ∃ swept, sweep options benchmark problem key configs table = .ok swept ∧
      invariant swept := by
  unfold sweep
  apply exists_foldlM invariant
  · intro swept config member holds
    have measured := measure_eq_meanTime options benchmark (records config member)
    have kept := advance swept config (meanTime options benchmark problem config) member holds
    refine ⟨_, ?_, kept⟩
    rw [measured]
    rfl
  · exact start

end Tuner

namespace Table

/-! ## What tuning leaves in a table -/

/-- Each record comes from a problem with its signature that it can be applied to. -/
def Sound (table : Table) : Prop :=
  ∀ key timing, table.find? key = some timing →
    ∃ (source : Problem) (config : Config),
      source.target.IsKnown ∧ source.signature = .ok key ∧
        source.Records config ∧ timing.config = config.encode

private theorem sound_empty : Sound empty := by
  intro key timing found
  cases found

theorem Sound.update {table : Table} {problem : Problem} {key : String} {config : Config}
    (sound : table.Sound) (known : problem.target.IsKnown)
    (signed : problem.signature = .ok key) (records : problem.Records config)
    (time : Binary64) : (table.update key ⟨config.encode, time⟩).1.Sound := by
  intro other timing found
  rw [find?_update] at found
  split at found
  · rename_i replaced
    obtain ⟨rfl, _⟩ := replaced
    cases found
    exact ⟨problem, config, known, signed, records, rfl⟩
  · exact sound other timing found

private theorem Sound.record
    {sweep : Tuner.Sweep} {problem : Problem} {key : String} {config : Config}
    (sound : sweep.table.Sound) (known : problem.target.IsKnown)
    (signed : problem.signature = .ok key) (records : problem.Records config)
    (time : Option Binary64) : (sweep.record key config time).table.Sound := by
  cases time with
  | none => exact sound
  | some time => exact sound.update known signed records time

private theorem Sound.sweep
    {table : Table} {problem : Problem} {key : String} {configs : List Config}
    (sound : table.Sound) (options : TunerOptions) (benchmark : Benchmark)
    (known : problem.target.IsKnown) (signed : problem.signature = .ok key)
    (records : ∀ config, config ∈ configs → problem.Records config) :
    ∃ swept, Tuner.sweep options benchmark problem key configs table = .ok swept ∧
      swept.table.Sound := by
  apply Tuner.exists_sweep options benchmark key table
    (fun swept => swept.table.Sound) records
  · intro swept config time member sweptSound
    exact sweptSound.record known signed (records config member) time
  · exact sound

theorem Sound.tune
    {table next : Table} {problem : Problem} {options : TunerOptions}
    {benchmark : Benchmark} {outcome : Outcome}
    (sound : table.Sound) (known : problem.target.IsKnown)
    (done : Passes (Tuner.tune options benchmark problem table) (outcome, next)) :
    next.Sound := by
  unfold Tuner.tune at done
  split at done
  · exact absurd done not_passes_throw
  · exact absurd done not_passes_throw
  · rename_i key space signed built
    simp only at done
    split at done
    · exact absurd done not_passes_throw
    · obtain ⟨swept, lifted, finished⟩ := passes_bind.mp done
      have records : ∀ config, config ∈ Tuner.candidates options problem space →
          problem.Records config :=
        fun _ member => Tuner.records_of_mem_candidates built member
      obtain ⟨result, sweepRun, resultSound⟩ :=
        sound.sweep options benchmark known signed records
      rw [passes_lift, sweepRun] at lifted
      cases lifted
      cases passes_pure.mp finished
      exact resultSound

/-- What calls of the tuner lead to.  The trials of a call may also take effect one by
one, in any order and among those of other calls, and with any time. -/
inductive Tuned : Table → Prop
  | empty : Tuned empty
  | tune
      {table next : Table} {problem : Problem} {options : TunerOptions}
      {benchmark : Benchmark} {outcome : Outcome}
      (tuned : Tuned table) (known : problem.target.IsKnown)
      (done : Passes (Tuner.tune options benchmark problem table) (outcome, next)) :
      Tuned next
  | trial
      {table : Table} {problem : Problem} {options : TunerOptions} {space : Space}
      {key : String} {config : Config}
      (tuned : Tuned table) (known : problem.target.IsKnown)
      (signed : problem.signature = .ok key)
      (built : Space.build problem options.level = .ok space)
      (member : config ∈ Tuner.candidates options problem space) (time : Binary64) :
      Tuned (table.update key ⟨config.encode, time⟩).1

theorem Tuned.sound {table : Table} (tuned : Tuned table) : table.Sound := by
  induction tuned with
  | empty => exact sound_empty
  | tune tuned known done induction => exact induction.tune known done
  | trial tuned known signed built member time induction =>
      have records := Tuner.records_of_mem_candidates built member
      exact induction.update known signed records time

/-- Whatever tuning has recorded under the signature of a problem suits the problem and
is applied to it, which changes nothing but the configuration and the prefill. -/
theorem applyBest_of_tuned
    {table : Table} {problem : Problem} {key : String} {timing : Timing}
    (tuned : Tuned table) (known : problem.target.IsKnown)
    (signed : problem.signature = .ok key) (recorded : table.find? key = some timing) :
    (∃ config, Config.decode timing.config = .ok config ∧
        problem.canFuse config = true ∧ problem.Accepts config) ∧
      ∃ prefill, table.applyBest problem =
        .ok (true,
          { problem with config := some timing.config, prefill := prefill }) := by
  obtain ⟨source, config, sourceKnown, sourceSigned, sourceRecords, encoded⟩ :=
    tuned.sound key timing recorded
  have same : source.kernel = problem.kernel :=
    Problem.kernel_eq_of_signature_eq sourceKnown known sourceSigned signed
  have records : problem.Records config := sourceRecords.congr same
  have found : table.lookup? problem = some config.encode := by
    rw [lookup?_of_signature signed, recorded, ← encoded]
    rfl
  constructor
  · rw [encoded]
    exact ⟨config, Config.decode_encode records.positive, records.fusible,
      records.accepted⟩
  · refine ⟨(problem.withConfig config).prefill, ?_⟩
    rw [records.applyBest found, problem.withConfig_eq config, encoded]

theorem applyBest_of_tuned_smallProduct :
    ∃ table key timing prefill,
      Tuned table ∧ Space.smallProduct.signature = .ok key ∧
        table.find? key = some timing ∧
        table.applyBest Space.smallProduct =
          .ok (true, { Space.smallProduct with
            config := some timing.config
            prefill := prefill }) := by
  have known : Space.smallProduct.target.IsKnown :=
    ⟨"gfx90a", Space.smallProduct.target, 104, rfl, rfl⟩
  have offered : ∃ space, Space.build Space.smallProduct .quick = .ok space ∧
      Config.matrix (Space.curatedMatrix 64 64 8 32 32 4) ∈
        Tuner.candidates { level := .quick } Space.smallProduct space :=
    ⟨_, Space.build_eq_ok_iff.mpr ⟨rfl, rfl⟩, by decide⟩
  obtain ⟨space, built, member⟩ := offered
  have tuned := Tuned.trial .empty known rfl built member ⟨0⟩
  refine ⟨_, _, _, _, tuned, rfl, rfl, (applyBest_of_tuned tuned known rfl rfl).2.choose_spec⟩

end Table

end KernelTuning
