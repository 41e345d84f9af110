import KernelTuning.Proofs.FastestRecords
import KernelTuning.Proofs.TunedTables

/-!
# Reports of the tuner

One call of the tuner is one sweep over the first candidates of the problem's space, in
order.  What it reports is compared here with what was measured: the counts, the record
that is left, and what a second call finds.
-/

namespace KernelTuning

open Checked

namespace Tuner

open Timing

/-- A call as its caller sees it: the answer, and the table afterwards.  A fault hands
over no table, so the caller keeps the one that it had. -/
def call
    (options : TunerOptions) (benchmark : Benchmark) (problem : Problem)
    (table : Table) : Checked (Except Fault Outcome × Table) := do
  match ← (tune options benchmark problem table).run with
  | .error fault => return (.error fault, table)
  | .ok (outcome, next) => return (.ok outcome, next)

section Measuring

variable (options : TunerOptions) (benchmark : Benchmark) (problem : Problem)

/-- What measuring a configuration offers to the table. -/
def trial (config : Config) : Option Timing :=
  (meanTime options benchmark problem config).map fun time => ⟨config.encode, time⟩

/-- The finite timings among the trials of configurations, in order. -/
def finiteTrials (configs : List Config) : List Timing :=
  (configs.filterMap (trial options benchmark problem)).filter (·.time.isFinite)

/-- All that competes for the record: the one at the start and the finite trials. -/
def offered (record : Option Timing) (configs : List Config) : List Timing :=
  record.toList ++ finiteTrials options benchmark problem configs

/-- Whether the trial of a configuration is finite and beats both the record at the start
and all finite trials of earlier configurations. -/
def setsRecord (record : Option Timing) (earlier : List Config) (config : Config) : Bool :=
  match trial options benchmark problem config with
  | none => false
  | some timing => decide (Beats (offered options benchmark problem record earlier) timing)

/-- The configurations that set a record when their turn comes. -/
def recordsSet (record : Option Timing) (configs : List Config) : Nat :=
  (List.range configs.length).countP fun place =>
    configs[place]?.any
      (setsRecord options benchmark problem record (configs.take place))

/-- The sweep with all arithmetic done: each configuration is timed and recorded. -/
def swept (key : String) (table : Table) (configs : List Config) : Sweep :=
  configs.foldl
    (fun sweep config => sweep.record key config (meanTime options benchmark problem config))
    { table := table }

end Measuring

variable {options : TunerOptions} {benchmark : Benchmark} {problem : Problem}
  {key : String} {table : Table} {configs : List Config}

theorem sweep_eq_swept
    (records : ∀ config, config ∈ configs → problem.Records config) :
    sweep options benchmark problem key configs table =
      .ok (swept options benchmark problem key table configs) := by
  unfold sweep swept
  generalize ({ table := table } : Sweep) = start
  induction configs generalizing start with
  | nil => rfl
  | cons config configs induction =>
      obtain ⟨configRecords, laterRecord⟩ := List.forall_mem_cons.mp records
      rw [List.foldlM_cons, measure_eq_meanTime options benchmark configRecords]
      exact induction laterRecord _

theorem swept_concat (config : Config) :
    swept options benchmark problem key table (configs ++ [config]) =
      (swept options benchmark problem key table configs).record key config
        (meanTime options benchmark problem config) := by
  unfold swept
  rw [List.foldl_append]
  rfl

theorem offered_concat (record : Option Timing) (config : Config) :
    offered options benchmark problem record (configs ++ [config]) =
      offered options benchmark problem record configs
        ++ finiteTrials options benchmark problem [config] := by
  unfold offered finiteTrials
  rw [List.filterMap_append, List.filter_append, List.append_assoc]

theorem finiteSince_offered (record : Option Timing) :
    FiniteSince (offered options benchmark problem record configs) := by
  have finite : ∀ timing, timing ∈ finiteTrials options benchmark problem configs →
      timing.time.isFinite = true :=
    fun _ member => (List.mem_filter.mp member).2
  intro timing member
  cases record with
  | none => exact finite timing (List.mem_of_mem_tail member)
  | some record => exact finite timing member

theorem recordsSet_concat (record : Option Timing) (config : Config) :
    recordsSet options benchmark problem record (configs ++ [config]) =
      recordsSet options benchmark problem record configs
        + if setsRecord options benchmark problem record configs config then 1 else 0 := by
  unfold recordsSet
  rw [List.length_append, List.length_singleton, List.range_succ, List.countP_append,
    List.countP_singleton]
  congr 1
  · apply List.countP_congr
    intro place member
    have inside : place < configs.length := List.mem_range.mp member
    rw [List.getElem?_append_left inside, List.take_append_of_le_length inside.le]
  · rw [List.getElem?_concat_length, List.take_append_of_le_length le_rfl, List.take_length]
    rfl

/-! ## One sweep -/

/-- A sweep that counts what it measured and keeps what was fastest. -/
structure Sweep.Truthful
    (options : TunerOptions) (benchmark : Benchmark) (problem : Problem) (key : String)
    (table : Table) (configs : List Config) (sweep : Sweep) : Prop where
  record : Recorded (offered options benchmark problem (table.find? key) configs)
    (sweep.table.find? key)
  others : ∀ other, other ≠ key → sweep.table.find? other = table.find? other
  counted : sweep.evaluated + sweep.rejected = configs.length
  rejected : sweep.rejected =
    configs.countP fun config => (benchmark (problem.withConfig config)).isNone
  improved : sweep.improved =
    recordsSet options benchmark problem (table.find? key) configs

namespace Sweep.Truthful

variable {sweep : Sweep}

private theorem start :
    Truthful options benchmark problem key table [] { table := table } where
  record := by
    unfold offered finiteTrials
    simpa using Recorded.single (table.find? key)
  others := fun _ _ => rfl
  counted := rfl
  rejected := rfl
  improved := rfl

variable {config : Config}

private theorem next_rejected
    (truthful : Truthful options benchmark problem key table configs sweep)
    (failed : meanTime options benchmark problem config = none) :
    Truthful options benchmark problem key table (configs ++ [config])
      (sweep.record key config none) where
  record := by
    have noTrial : finiteTrials options benchmark problem [config] = [] := by
      simp [finiteTrials, trial, failed]
    rw [offered_concat, noTrial, List.append_nil]
    exact truthful.record
  others := truthful.others
  counted := by
    have counted := truthful.counted
    simp only [Sweep.record, List.length_append, List.length_singleton]
    omega
  rejected := by
    have failedRun : benchmark (problem.withConfig config) = none :=
      Option.map_eq_none_iff.mp failed
    simp [Sweep.record, List.countP_append, failedRun, truthful.rejected]
  improved := by
    have unimproved :
        setsRecord options benchmark problem (table.find? key) configs config = false := by
      simp [setsRecord, trial, failed]
    rw [recordsSet_concat, unimproved]
    exact truthful.improved

private theorem next_measured {time : Binary64}
    (truthful : Truthful options benchmark problem key table configs sweep)
    (measured : meanTime options benchmark problem config = some time) :
    Truthful options benchmark problem key table (configs ++ [config])
      (sweep.record key config (some time)) where
  record := by
    have newTrial : finiteTrials options benchmark problem [config] =
        Rows.history [(key, ⟨config.encode, time⟩)] key := by
      by_cases finite : time.isFinite = true <;>
        simp [finiteTrials, trial, measured, Rows.history, finite]
    rw [offered_concat, newTrial]
    exact Table.recorded_update truthful.record (finiteSince_offered _) key _
  others := by
    intro other different
    have kept : (sweep.table.update key ⟨config.encode, time⟩).1.find? other =
        sweep.table.find? other := by
      rw [Table.find?_update, if_neg fun replaced => different replaced.1]
    exact kept.trans (truthful.others other different)
  counted := by
    have counted := truthful.counted
    simp only [Sweep.record, List.length_append, List.length_singleton]
    omega
  rejected := by
    obtain ⟨run, timed, _⟩ := Option.map_eq_some_iff.mp measured
    simp [Sweep.record, List.countP_append, timed, truthful.rejected]
  improved := by
    have improves : (sweep.table.update key ⟨config.encode, time⟩).2 =
        setsRecord options benchmark problem (table.find? key) configs config := by
      simp only [setsRecord, trial, measured, Option.map_some]
      exact Table.update_eq truthful.record (finiteSince_offered _)
    rw [recordsSet_concat, ← truthful.improved, ← improves]
    simp only [Sweep.record]
    split <;> rfl

/-- Each configuration adds one to exactly one of the first two counts. -/
private theorem next
    (truthful : Truthful options benchmark problem key table configs sweep) :
    Truthful options benchmark problem key table (configs ++ [config])
      (sweep.record key config (meanTime options benchmark problem config)) := by
  cases measured : meanTime options benchmark problem config with
  | none => exact truthful.next_rejected measured
  | some time => exact truthful.next_measured measured

/-- A timing that took part in the sweep is no improvement on what the sweep leaves. -/
private theorem isImprovement_eq_false {timing : Timing}
    (truthful : Truthful options benchmark problem key table configs sweep)
    (member : config ∈ configs)
    (tried : trial options benchmark problem config = some timing) :
    sweep.table.isImprovement key timing = false := by
  rw [← Bool.not_eq_true, Table.isImprovement_iff truthful.record (finiteSince_offered _)]
  rintro ⟨finite, fastest⟩
  have competes :
      timing ∈ offered options benchmark problem (table.find? key) configs := by
    apply List.mem_append_right
    apply List.mem_filter.mpr
    exact ⟨List.mem_filterMap.mpr ⟨config, member, tried⟩, finite⟩
  exact Binary64.lt_irrefl _ (fastest timing competes)

end Sweep.Truthful

theorem truthful_swept (configs : List Config) :
    (swept options benchmark problem key table configs).Truthful
      options benchmark problem key table configs := by
  induction configs using List.reverseRecOn with
  | nil => exact .start
  | append_singleton configs config induction =>
      rw [swept_concat]
      exact induction.next

/-! ## A second sweep -/

/-- Without an improvement a sweep leaves the table alone. -/
private theorem swept_of_settled
    (settled : ∀ config timing, config ∈ configs →
      trial options benchmark problem config = some timing →
        table.isImprovement key timing = false) :
    (swept options benchmark problem key table configs).table = table ∧
      (swept options benchmark problem key table configs).improved = 0 := by
  induction configs using List.reverseRecOn with
  | nil => exact ⟨rfl, rfl⟩
  | append_singleton configs config induction =>
      obtain ⟨kept, unimproved⟩ := induction fun earlier timing member =>
        settled earlier timing (List.mem_append_left _ member)
      rw [swept_concat]
      cases measured : meanTime options benchmark problem config with
      | none => exact ⟨kept, unimproved⟩
      | some time =>
          have tried : trial options benchmark problem config =
              some ⟨config.encode, time⟩ := by
            rw [trial, measured, Option.map_some]
          have noBetter := settled config _ (by simp) tried
          simp [Sweep.record, Table.update, kept, unimproved, noBetter]

/-- A repeated sweep measures the same and finds nothing to record. -/
theorem swept_again (configs : List Config) :
    swept options benchmark problem key
        (swept options benchmark problem key table configs).table configs =
      { swept options benchmark problem key table configs with improved := 0 } := by
  have first : (swept options benchmark problem key table configs).Truthful
      options benchmark problem key table configs := truthful_swept configs
  generalize swept options benchmark problem key table configs = done at first
  have again : (swept options benchmark problem key done.table configs).Truthful
      options benchmark problem key done.table configs := truthful_swept configs
  -- Whatever the repeated sweep tries has taken part in the first one.
  obtain ⟨kept, unimproved⟩ :=
    swept_of_settled fun config timing => first.isImprovement_eq_false
  generalize swept options benchmark problem key done.table configs = repeated at *
  have rejected : repeated.rejected = done.rejected :=
    again.rejected.trans first.rejected.symm
  have evaluated : repeated.evaluated = done.evaluated := by
    have counted := first.counted
    have countedAgain := again.counted
    omega
  calc repeated
      = ⟨repeated.table, repeated.evaluated, repeated.rejected, repeated.improved⟩ := rfl
    _ = { done with improved := 0 } := by
        rw [kept, evaluated, rejected, unimproved]

/-! ## What a call measures -/

/-- The configurations of a space that may be combined with the fused operations. -/
def fusible (problem : Problem) (space : Space) : List Config :=
  space.valid.filter problem.canFuse

theorem candidates_eq_take (options : TunerOptions) (problem : Problem) (space : Space) :
    candidates options problem space =
      (fusible problem space).take
        (options.maxCandidates.getD (fusible problem space).length) := by
  unfold candidates fusible
  cases options.maxCandidates with
  | none => exact List.take_length.symm
  | some limit => rfl

private theorem candidates_eq_nil_iff {space : Space} :
    candidates options problem space = [] ↔
      (∀ config, config ∈ space.valid → problem.canFuse config = false) ∨
        options.maxCandidates = some 0 := by
  have nothing : fusible problem space = [] ↔
      ∀ config, config ∈ space.valid → problem.canFuse config = false := by
    unfold fusible
    rw [List.filter_eq_nil_iff]
    simp only [Bool.not_eq_true]
  rw [candidates_eq_take, ← nothing, List.take_eq_nil_iff]
  cases options.maxCandidates with
  | none => simp
  | some limit => simp [or_comm]

/-- There is nothing to measure: no problem to tune, no candidate, or none allowed. -/
def Idle (options : TunerOptions) (problem : Problem) : Prop :=
  problem.validate ≠ .ok () ∨
    (∀ space, Space.build problem options.level = .ok space →
      ∀ config, config ∈ space.valid → problem.canFuse config = false) ∨
    options.maxCandidates = some 0

private theorem idle_iff_of_build {space : Space}
    (built : Space.build problem options.level = .ok space) :
    Idle options problem ↔ candidates options problem space = [] := by
  have validated := (Space.build_eq_ok_iff.mp built).1
  rw [candidates_eq_nil_iff]
  unfold Idle
  constructor
  · rintro (invalid | noFusible | capped)
    · exact absurd validated invalid
    · exact .inl (noFusible space built)
    · exact .inr capped
  · rintro (noFusible | capped)
    · refine .inr (.inl ?_)
      intro other otherBuilt
      cases built.symm.trans otherBuilt
      exact noFusible
    · exact .inr (.inr capped)

/-! ## A call -/

private theorem call_of_invalid
    (options : TunerOptions) (benchmark : Benchmark) (table : Table)
    (invalid : problem.validate ≠ .ok ()) :
    ∃ fault, call options benchmark problem table = .ok (.error fault, table) := by
  cases validated : problem.validate with
  | ok accepted => exact absurd validated invalid
  | error fault =>
      have unsigned : problem.signature = .error ⟨fault⟩ := by
        rw [Problem.signature, validated]
      refine ⟨.unsigned ⟨fault⟩, ?_⟩
      unfold call tune
      rw [unsigned]
      rfl

section Valid

variable {space : Space}
  (signed : problem.signature = .ok key)
  (built : Space.build problem options.level = .ok space)

include signed built

theorem call_of_nil (nothing : candidates options problem space = []) :
    call options benchmark problem table =
      .ok (.error (.noCandidates key options.level space.size), table) := by
  unfold call tune
  rw [signed, built]
  simp only [nothing, List.isEmpty_nil, if_true]
  rfl

theorem call_of_ne_nil (something : candidates options problem space ≠ []) :
    let sweep := swept options benchmark problem key table (candidates options problem space)
    call options benchmark problem table = .ok (.ok (sweep.outcome key), sweep.table) := by
  have records : ∀ config, config ∈ candidates options problem space →
      problem.Records config :=
    fun _ member => records_of_mem_candidates built member
  unfold call tune
  rw [signed, built]
  simp only [List.isEmpty_iff, something, if_false, sweep_eq_swept records]
  rfl

/-- A call with the table that the same call has left. -/
theorem call_again (something : candidates options problem space ≠ []) :
    let sweep := swept options benchmark problem key table (candidates options problem space)
    call options benchmark problem sweep.table =
      .ok (.ok { sweep.outcome key with improved := 0 }, sweep.table) := by
  intro sweep
  rw [call_of_ne_nil signed built something, swept_again]
  rfl

end Valid

/-- A call always comes back.  It reports a fault exactly when there is nothing to
measure, and then the table is as before.  Otherwise it has swept once, in order, over
the first fusible configurations of the space: it counts those that the benchmark failed
on, all others, and those that set a record, and it leaves and reports the record of the
problem.  Calling again changes nothing. -/
theorem call_truthful
    (options : TunerOptions) (benchmark : Benchmark) (problem : Problem) (table : Table) :
    ∃ answer next, call options benchmark problem table = .ok (answer, next) ∧
      ((∃ fault, answer = .error fault) ↔ Idle options problem) ∧
      (∀ fault, answer = .error fault → next = table) ∧
      ∀ outcome, answer = .ok outcome →
        ∃ key space configs, problem.signature = .ok key ∧
          Space.build problem options.level = .ok space ∧
          configs = (fusible problem space).take
            (options.maxCandidates.getD (fusible problem space).length) ∧
          (∀ config, config ∈ configs →
            Passes (problem.apply config) (problem.withConfig config)) ∧
          outcome.signature = key ∧
          outcome.best = next.find? key ∧
          outcome.evaluated + outcome.rejected = configs.length ∧
          outcome.rejected =
            configs.countP (fun config => (benchmark (problem.withConfig config)).isNone) ∧
          outcome.improved = recordsSet options benchmark problem (table.find? key) configs ∧
          Recorded (offered options benchmark problem (table.find? key) configs)
            (next.find? key) ∧
          (∀ other, other ≠ key → next.find? other = table.find? other) ∧
          call options benchmark problem next =
            .ok (.ok { outcome with improved := 0 }, next) := by
  by_cases validated : problem.validate = .ok ()
  · obtain ⟨key, signed⟩ : ∃ key, problem.signature = .ok key :=
      ⟨_, Problem.signature_eq_ok_iff.mpr ⟨validated, rfl⟩⟩
    obtain ⟨space, built⟩ : ∃ space, Space.build problem options.level = .ok space :=
      ⟨_, Space.build_eq_ok_iff.mpr ⟨validated, rfl⟩⟩
    have idle : Idle options problem ↔ candidates options problem space = [] :=
      idle_iff_of_build built
    by_cases nothing : candidates options problem space = []
    · refine ⟨_, table, call_of_nil signed built nothing, ?_, fun _ _ => rfl, ?_⟩
      · exact ⟨fun _ => idle.mpr nothing, fun _ => ⟨_, rfl⟩⟩
      · intro outcome swept
        cases swept
    · refine ⟨_, _, call_of_ne_nil signed built nothing, ?_, ?_, ?_⟩
      · rw [idle]
        constructor
        · rintro ⟨fault, failed⟩
          cases failed
        · intro empty
          exact absurd empty nothing
      · intro fault failed
        cases failed
      · intro outcome succeeded
        cases succeeded
        have truthful : Sweep.Truthful options benchmark problem key table
            (candidates options problem space) _ := truthful_swept _
        refine ⟨key, space, _, signed, built, candidates_eq_take options problem space, ?_,
          rfl, rfl, truthful.counted, truthful.rejected, truthful.improved, truthful.record,
          truthful.others, call_again signed built nothing⟩
        intro config member
        exact (records_of_mem_candidates built member).accepted.passes_apply
  · obtain ⟨fault, failed⟩ := call_of_invalid options benchmark table validated
    refine ⟨_, table, failed, ?_, fun _ _ => rfl, ?_⟩
    · exact ⟨fun _ => .inl validated, fun _ => ⟨fault, rfl⟩⟩
    · intro outcome succeeded
      cases succeeded

end Tuner

end KernelTuning
