import KernelTuning.Proofs.StructuralLimits
import KernelTuning.Proofs.TableProgress
import KernelTuning.Session

/-!
# Configured problems

A session configures a problem with the record of its signature, and tunes it first if that
record is of no use.  The record is read again after tuning, so what was of no use before can
only be replaced by a faster timing: a record that is as fast as all candidates stays, and
keeps its problem from being configured.
-/

namespace KernelTuning

open Checked Timing

namespace Problem

variable {problem other : Problem} {text : String} {config : Config}

/-- The text is a configuration that the problem can carry. -/
structure Usable (problem : Problem) (text : String) (config : Config) : Prop where
  readable : Config.decode text = .ok config
  fusible : problem.canFuse config = true
  accepted : problem.Accepts config

/-- The text gets as far as the checks of its configuration, which stop with an arithmetic
fault. -/
def StopsAt (problem : Problem) (text : String) : Prop :=
  problem.canFuseText text = true ∧ problem.OverflowsOn text

/-- The text is turned down: it cannot be read or fused, or the checks find something wrong. -/
def Refuses (problem : Problem) (text : String) : Prop :=
  problem.canFuseText text = true →
    ∃ rejection, (problem.applyText text).run = .ok (.error rejection)

theorem Usable.congr (same : problem.kernel = other.kernel)
    (usable : problem.Usable text config) : other.Usable text config where
  readable := usable.readable
  fusible := by
    rw [← canFuse_congr config same]
    exact usable.fusible
  accepted := (accepts_congr same).mp usable.accepted

theorem Records.usable (records : problem.Records config) :
    problem.Usable config.encode config where
  readable := Config.decode_encode records.positive
  fusible := records.fusible
  accepted := records.accepted

theorem Usable.passes_applyText (usable : problem.Usable text config) :
    Passes (problem.applyText text) (problem.withConfig config) :=
  Problem.passes_applyText.mpr ⟨config, usable.readable, usable.accepted.passes_apply⟩

theorem Usable.canFuseText (usable : problem.Usable text config) :
    problem.canFuseText text = true :=
  canFuseText_iff.mpr ⟨config, usable.readable, usable.fusible⟩

theorem Usable.encode (usable : problem.Usable text config) :
    problem.Usable config.encode config where
  readable := Config.decode_encode (Config.positive_of_decode usable.readable)
  fusible := usable.fusible
  accepted := usable.accepted

theorem StopsAt.run_applyText (stops : problem.StopsAt text) :
    (problem.applyText text).run = .error .multiplication := by
  cases run : (problem.applyText text).run with
  | error fault => cases fault; rfl
  | ok answer => exact absurd stops.2 (ends_applyText_iff.mp ⟨answer, run⟩)

theorem StopsAt.not_usable (stops : problem.StopsAt text) : ¬problem.Usable text config := by
  intro usable
  cases stops.run_applyText.symm.trans usable.passes_applyText

/-- A text has one of three fates. -/
theorem usable_or_stopsAt_or_refuses (problem : Problem) (text : String) :
    (∃ config, problem.Usable text config) ∨ problem.StopsAt text ∨ problem.Refuses text := by
  by_cases fusible : problem.canFuseText text = true
  · by_cases overflows : problem.OverflowsOn text
    · exact .inr (.inl ⟨fusible, overflows⟩)
    · obtain ⟨answer, run⟩ := ends_applyText_iff.mpr overflows
      cases answer with
      | error rejection => exact .inr (.inr fun _ => ⟨rejection, run⟩)
      | ok configured =>
          obtain ⟨config, readable, applied⟩ := passes_applyText.mp run
          obtain ⟨other, otherReadable, canFuse⟩ := canFuseText_iff.mp fusible
          cases readable.symm.trans otherReadable
          exact .inl ⟨config, readable, canFuse, (passes_apply.mp applied).1⟩
  · exact .inr (.inr fun fuses => absurd fuses fusible)

theorem Refuses.not_usable (refuses : problem.Refuses text) : ¬problem.Usable text config := by
  intro usable
  obtain ⟨rejection, run⟩ := refuses usable.canFuseText
  cases run.symm.trans usable.passes_applyText

theorem Refuses.not_stopsAt (refuses : problem.Refuses text) : ¬problem.StopsAt text := by
  intro stops
  obtain ⟨rejection, run⟩ := refuses stops.1
  cases run.symm.trans stops.run_applyText

end Problem

namespace Table

variable {table : Table} {problem : Problem} {text : String} {config : Config}

theorem applyBest_of_usable (recorded : table.lookup? problem = some text)
    (usable : problem.Usable text config) :
    table.applyBest problem = .ok (true, problem.withConfig config) :=
  applyBest_eq_true_iff.mpr ⟨text, recorded, usable.canFuseText, usable.passes_applyText⟩

theorem applyBest_of_stopsAt (recorded : table.lookup? problem = some text)
    (stops : problem.StopsAt text) : table.applyBest problem = .error .multiplication := by
  rw [applyBest_of_lookup? recorded, if_pos stops.1, Host.settle, stops.run_applyText]
  rfl

theorem applyBest_of_refuses
    (refuses : ∀ text, table.lookup? problem = some text → problem.Refuses text) :
    table.applyBest problem = .ok (false, problem) := by
  cases recorded : table.lookup? problem with
  | none =>
      rw [applyBest, recorded]
  | some text =>
      rw [applyBest_of_lookup? recorded]
      split
      · rename_i fusible
        obtain ⟨rejection, run⟩ := refuses text recorded fusible
        rw [Host.settle, run]
        rfl
      · rfl

end Table

/-! ## The record after tuning -/

theorem Timing.preferred_eq_or (ours theirs : Option Timing) :
    preferred ours theirs = ours ∨ preferred ours theirs = theirs := by
  cases theirs with
  | none => cases ours <;> exact .inl rfl
  | some theirs => exact (preferred_eq ours theirs).symm

namespace Tuner

variable {options : TunerOptions} {benchmark : Benchmark} {problem : Problem} {key : String}
  {table : Table} {configs : List Config}

theorem recorded_swept_empty (key : String) (configs : List Config) :
    Recorded (finiteTrials options benchmark problem configs)
      ((swept options benchmark problem key .empty configs).table.find? key) := by
  -- Nothing is offered by an empty table, so the finite trials compete among themselves.
  have recorded : Recorded (offered options benchmark problem (Table.empty.find? key) configs)
      ((swept options benchmark problem key .empty configs).table.find? key) :=
    (truthful_swept configs).record
  exact recorded

/-- What a sweep leaves on record is what it would have left in an empty table, unless the old
record is at least as fast. -/
theorem find?_swept (table : Table) :
    (swept options benchmark problem key table configs).table.find? key =
      preferred (table.find? key)
        ((swept options benchmark problem key .empty configs).table.find? key) := by
  have finite : ∀ timing, timing ∈ finiteTrials options benchmark problem configs →
      timing.time.isFinite = true :=
    fun _ member => (List.mem_filter.mp member).2
  have onlyOne : FiniteSince (table.find? key).toList := by
    cases table.find? key <;> simp [FiniteSince]
  have joint := (Recorded.single (table.find? key)).append (recorded_swept_empty key configs) onlyOne finite
  exact (truthful_swept configs).record.unique joint

/-- What a sweep finds on its own is a configuration that it has measured. -/
theorem usable_of_find?_swept {fresh : Timing}
    (records : ∀ config, config ∈ configs → problem.Records config)
    (found : (swept options benchmark problem key .empty configs).table.find? key = some fresh) :
    ∃ config, fresh.config = config.encode ∧ problem.Usable fresh.config config := by
  have first : FirstFastest (finiteTrials options benchmark problem configs) fresh :=
    (recorded_swept_empty key configs).eq_some_iff.mp found
  obtain ⟨config, member, tried⟩ := List.mem_filterMap.mp (List.mem_filter.mp first.mem).1
  obtain ⟨time, _, rfl⟩ := Option.map_eq_some_iff.mp tried
  exact ⟨config, rfl, (records config member).usable⟩

/-- After a sweep the record is a configuration that has been measured, or the old one. -/
theorem usable_or_eq_of_find?_swept {timing : Timing}
    (records : ∀ config, config ∈ configs → problem.Records config)
    (found : (swept options benchmark problem key table configs).table.find? key = some timing) :
    (∃ config, problem.Usable timing.config config) ∨ table.find? key = some timing := by
  rw [find?_swept] at found
  rcases preferred_eq_or (table.find? key)
      ((swept options benchmark problem key .empty configs).table.find? key) with old | new
  · exact .inr (old.symm.trans found)
  · obtain ⟨config, _, usable⟩ := usable_of_find?_swept records (new.symm.trans found)
    exact .inl ⟨config, usable⟩

end Tuner

namespace Session

variable {session : Session} {problem : Problem} {text : String} {config : Config}

/-! ## One call -/

theorem configOf_withConfig (problem : Problem) (config : Config) :
    configOf (problem.withConfig config) = .ok config.encode := by
  rw [configOf, Problem.withConfig_eq]

theorem applyOrTune_of_usable (recorded : session.table.lookup? problem = some text)
    (usable : problem.Usable text config) :
    session.applyOrTune problem =
      .ok ⟨.ok config.encode, problem.withConfig config, session⟩ := by
  unfold applyOrTune
  rw [Table.applyBest_of_usable recorded usable]
  change Except.ok (ε := Overflow) (Configured.mk (configOf _) _ _) = _
  rw [configOf_withConfig]

theorem applyOrTune_of_stopsAt (recorded : session.table.lookup? problem = some text)
    (stops : problem.StopsAt text) : session.applyOrTune problem = .error .multiplication := by
  unfold applyOrTune
  rw [Table.applyBest_of_stopsAt recorded stops]
  rfl

theorem applyOrTune_of_untuned
    (refuses : ∀ text, session.table.lookup? problem = some text → problem.Refuses text)
    {fault : Tuner.Fault}
    (untuned : (session.tuneWithCostModel problem).run = .ok (.error fault)) :
    session.applyOrTune problem = .ok ⟨.error (.tuning fault), problem, session⟩ := by
  unfold applyOrTune
  rw [Table.applyBest_of_refuses refuses]
  change (session.tuneWithCostModel problem).run >>= _ = _
  rw [untuned]
  rfl

private theorem applyOutcome_of_usable {outcome : Outcome} {timing : Timing}
    (best : outcome.best = some timing) (usable : problem.Usable timing.config config) :
    session.applyOutcome problem outcome =
      .ok ⟨.ok config.encode, problem.withConfig config, session⟩ := by
  unfold applyOutcome
  simp only [best, usable.canFuseText, if_true]
  rw [usable.passes_applyText]
  change Except.ok (ε := Overflow) (Configured.mk (configOf _) _ _) = _
  rw [configOf_withConfig]

private theorem applyOutcome_of_refuses {outcome : Outcome}
    (refuses : ∀ timing, outcome.best = some timing → problem.Refuses timing.config) :
    ∃ fault, session.applyOutcome problem outcome = .ok ⟨.error fault, problem, session⟩ := by
  unfold applyOutcome
  cases best : outcome.best with
  | none => exact ⟨_, rfl⟩
  | some timing =>
      cases fusible : problem.canFuseText timing.config with
      | false =>
          simp only [fusible]
          exact ⟨_, rfl⟩
      | true =>
          obtain ⟨rejection, run⟩ := refuses timing best fusible
          simp only [fusible, if_true]
          rw [run]
          exact ⟨_, rfl⟩

/-! ## Tuning on the way -/

/-- The session after sweeping over configurations with its cost model. -/
def afterSweep (session : Session) (problem : Problem) (key : String)
    (configs : List Config) : Session :=
  { session with
    table := (Tuner.swept session.options.tuner session.costModel.benchmark problem key
      session.table configs).table }

/-- The configurations that tuning with the cost model measures, whatever is in the table. -/
structure Measures (options : SessionOptions) (problem : Problem) (key : String)
    (configs : List Config) : Prop where
  signed : problem.signature = .ok key
  records : ∀ config, config ∈ configs → problem.Records config
  tunes : ∀ table, ∃ outcome,
    Passes ((Session.mk options table).tuneWithCostModel problem)
        (outcome, afterSweep ⟨options, table⟩ problem key configs) ∧
      outcome.best = (afterSweep ⟨options, table⟩ problem key configs).table.find? key

theorem untuned_or_measures (options : SessionOptions) (problem : Problem) :
    (∃ fault, ∀ table, ((Session.mk options table).tuneWithCostModel problem).run =
        .ok (.error fault)) ∨
      ∃ key configs, Measures options problem key configs := by
  rcases exists_tune options (CostModel.benchmark { seed := options.seed }) problem with
    untuned | ⟨key, configs, signed, records, tuned⟩
  · exact .inl untuned
  · exact .inr ⟨key, configs, signed, records, fun table => ⟨_, tuned table, rfl⟩⟩

variable {key : String} {configs : List Config}

private theorem find?_afterSweep (options : SessionOptions) (table : Table) :
    (afterSweep ⟨options, table⟩ problem key configs).table.find? key =
      preferred (table.find? key)
        ((afterSweep ⟨options, .empty⟩ problem key configs).table.find? key) :=
  Tuner.find?_swept table

theorem Measures.applyOrTune (measures : Measures session.options problem key configs)
    (refuses : ∀ text, session.table.lookup? problem = some text → problem.Refuses text) :
    ∃ outcome, outcome.best = (session.afterSweep problem key configs).table.find? key ∧
      session.applyOrTune problem =
        (session.afterSweep problem key configs).applyOutcome problem outcome := by
  obtain ⟨outcome, tuned, best⟩ := measures.tunes session.table
  refine ⟨outcome, best, ?_⟩
  unfold Session.applyOrTune
  rw [Table.applyBest_of_refuses refuses]
  change (session.tuneWithCostModel problem).run >>= _ = _
  rw [tuned]
  rfl

section Refused

variable (measures : Measures session.options problem key configs)
  (refuses : ∀ text, session.table.lookup? problem = some text → problem.Refuses text)

include measures refuses

theorem applyOrTune_of_best_usable {timing : Timing}
    (best : (session.afterSweep problem key configs).table.find? key = some timing)
    (usable : problem.Usable timing.config config) :
    session.applyOrTune problem =
      .ok ⟨.ok config.encode, problem.withConfig config,
        session.afterSweep problem key configs⟩ := by
  obtain ⟨outcome, recorded, done⟩ := measures.applyOrTune refuses
  rw [done]
  exact applyOutcome_of_usable (recorded.trans best) usable

theorem applyOrTune_of_best_refuses
    (turnedDown : ∀ timing,
      (session.afterSweep problem key configs).table.find? key = some timing →
        problem.Refuses timing.config) :
    ∃ fault, session.applyOrTune problem =
      .ok ⟨.error fault, problem, session.afterSweep problem key configs⟩ := by
  obtain ⟨outcome, recorded, done⟩ := measures.applyOrTune refuses
  rw [done]
  apply applyOutcome_of_refuses
  intro timing best
  exact turnedDown timing (recorded.symm.trans best)

end Refused

/-! ## What a call leaves -/

/-- The problem carries a text that suits it and stands for the record of its signature, and
so will every problem of the same kernel. -/
structure Applied (problem : Problem) (text : String) (config : Config)
    (configured : Configured) : Prop where
  usable : problem.Usable text config
  recorded : ∃ key timing, problem.signature = .ok key ∧
    configured.session.table.find? key = some timing ∧
      Config.decode timing.config = .ok config
  written : configured.problem =
    { problem with config := some text, prefill := configured.problem.prefill }
  again : ∀ other : Problem, other.kernel = problem.kernel →
    configured.session.applyOrTune other =
      .ok ⟨.ok text, other.withConfig config, configured.session⟩

/-- The problem has been configured, or it is as it was; the table has made progress under the
signature of the problem in either case. -/
structure Settles (session : Session) (problem : Problem) (configured : Configured) :
    Prop where
  options : configured.session.options = session.options
  progress : Table.Progress (fun key => problem.signature = .ok key) session.table
    configured.session.table
  refused : ∀ fault, configured.result = .error fault → configured.problem = problem
  applied : ∀ text, configured.result = .ok text → ∃ config, Applied problem text config configured

variable {next : Session} {timing : Timing}

private theorem applied_of_usable (signed : problem.signature = .ok key)
    (recorded : next.table.find? key = some timing)
    (usable : problem.Usable timing.config config) :
    Applied problem config.encode config
      ⟨.ok config.encode, problem.withConfig config, next⟩ where
  usable := usable.encode
  recorded := ⟨key, timing, signed, recorded, usable.readable⟩
  written := problem.withConfig_eq config
  again := by
    intro other same
    have otherRecorded : next.table.lookup? other = some timing.config := by
      rw [Table.lookup?_of_signature ((Problem.signature_congr same).trans signed), recorded]
      rfl
    exact applyOrTune_of_usable otherRecorded (usable.congr same.symm)

theorem settles_of_usable (options : next.options = session.options)
    (progress : Table.Progress (fun key => problem.signature = .ok key) session.table
      next.table)
    (signed : problem.signature = .ok key) (recorded : next.table.find? key = some timing)
    (usable : problem.Usable timing.config config) :
    Settles session problem ⟨.ok config.encode, problem.withConfig config, next⟩ where
  options := options
  progress := progress
  refused := by
    intro fault failed
    cases failed
  applied := by
    intro text succeeded
    cases succeeded
    exact ⟨config, applied_of_usable signed recorded usable⟩

theorem settles_of_fault {fault : Fault} (options : next.options = session.options)
    (progress : Table.Progress (fun key => problem.signature = .ok key) session.table
      next.table) :
    Settles session problem ⟨.error fault, problem, next⟩ where
  options := options
  progress := progress
  refused _ _ := rfl
  applied := by
    intro text succeeded
    cases succeeded

theorem Measures.settles (measures : Measures session.options problem key configs)
    (refuses : ∀ text, session.table.lookup? problem = some text → problem.Refuses text) :
    ∃ configured, session.applyOrTune problem = .ok configured ∧
      Settles session problem configured := by
  have progress : Table.Progress (fun key => problem.signature = .ok key) session.table
      (session.afterSweep problem key configs).table :=
    Tuner.progress_swept _ _ _ measures.signed _ _
  by_cases suited : ∃ timing config,
      (session.afterSweep problem key configs).table.find? key = some timing ∧
        problem.Usable timing.config config
  · obtain ⟨timing, config, best, usable⟩ := suited
    exact ⟨_, applyOrTune_of_best_usable measures refuses best usable,
      settles_of_usable rfl progress measures.signed best usable⟩
  · have turnedDown : ∀ timing,
        (session.afterSweep problem key configs).table.find? key = some timing →
          problem.Refuses timing.config := by
      intro timing best
      -- What has been measured suits the problem, so only the old record can be in the way.
      rcases Tuner.usable_or_eq_of_find?_swept measures.records best with
        ⟨config, usable⟩ | old
      · exact absurd ⟨timing, config, best, usable⟩ suited
      · exact refuses timing.config
          (Table.lookup?_eq_some_iff.mpr ⟨key, timing, measures.signed, old, rfl⟩)
    obtain ⟨fault, failed⟩ := applyOrTune_of_best_refuses measures refuses turnedDown
    exact ⟨_, failed, settles_of_fault rfl progress⟩

/-- Without an arithmetic fault at the recorded text, configuring a problem has a result. -/
theorem exists_settles
    (continues : ∀ text, session.table.lookup? problem = some text → ¬problem.StopsAt text) :
    ∃ configured, session.applyOrTune problem = .ok configured ∧
      Settles session problem configured := by
  by_cases refuses : ∀ text, session.table.lookup? problem = some text → problem.Refuses text
  · rcases untuned_or_measures session.options problem with
      ⟨fault, untuned⟩ | ⟨key, configs, measures⟩
    · exact ⟨_, applyOrTune_of_untuned refuses (untuned session.table),
        settles_of_fault rfl (.refl _ _)⟩
    · exact measures.settles refuses
  · obtain ⟨text, recorded, notRefused⟩ : ∃ text, session.table.lookup? problem = some text ∧
        ¬problem.Refuses text := by
      simpa using refuses
    rcases problem.usable_or_stopsAt_or_refuses text with ⟨config, usable⟩ | stops | refused
    · obtain ⟨key, timing, signed, found, rfl⟩ := Table.lookup?_eq_some_iff.mp recorded
      exact ⟨_, applyOrTune_of_usable recorded usable,
        settles_of_usable rfl (.refl _ _) signed found usable⟩
    · exact absurd stops (continues text recorded)
    · exact absurd refused notRefused

/-- Configuring a problem is all or nothing.  It stops with an arithmetic fault only at a
recorded text, before anything has been changed; otherwise the problem is as before, or it
carries the configuration on record, and configuring it again changes nothing. -/
theorem applyOrTune_settles (session : Session) (problem : Problem) :
    (∃ text, session.table.lookup? problem = some text ∧ problem.StopsAt text ∧
        session.applyOrTune problem = .error .multiplication) ∨
      ∃ configured, session.applyOrTune problem = .ok configured ∧
        Settles session problem configured := by
  by_cases stopping : ∃ text, session.table.lookup? problem = some text ∧ problem.StopsAt text
  · obtain ⟨text, recorded, stops⟩ := stopping
    exact .inl ⟨text, recorded, stops, applyOrTune_of_stopsAt recorded stops⟩
  · right
    apply exists_settles
    intro text recorded stops
    exact stopping ⟨text, recorded, stops⟩

theorem settles_of_applyOrTune {configured : Configured}
    (done : session.applyOrTune problem = .ok configured) :
    Settles session problem configured := by
  have continues : ∀ text, session.table.lookup? problem = some text → ¬problem.StopsAt text := by
    intro text recorded stops
    cases done.symm.trans (applyOrTune_of_stopsAt recorded stops)
  obtain ⟨other, same, settles⟩ := exists_settles continues
  cases done.symm.trans same
  exact settles

/-! ## Records in the way -/

/-- The text that a session configures a problem with, if it does. -/
def configuredText? (session : Session) (problem : Problem) : Option String :=
  (session.applyOrTune problem).toOption.bind fun configured => configured.result.toOption

theorem configuredText?_of_applyOrTune {configured : Configured}
    (done : session.applyOrTune problem = .ok configured) :
    session.configuredText? problem = configured.result.toOption := by
  rw [configuredText?, done]
  rfl

theorem configuredText?_eq_some_iff :
    session.configuredText? problem = some text ↔
      ∃ configured, session.applyOrTune problem = .ok configured ∧
        configured.result = .ok text := by
  unfold configuredText?
  cases session.applyOrTune problem with
  | error fault => simp [Except.toOption]
  | ok configured => cases result : configured.result <;> simp [Except.toOption, result]

private theorem configuredText?_of_usable (recorded : session.table.lookup? problem = some text)
    (usable : problem.Usable text config) :
    session.configuredText? problem = some config.encode := by
  rw [configuredText?_of_applyOrTune (applyOrTune_of_usable recorded usable)]
  rfl

private theorem configuredText?_of_stopsAt (recorded : session.table.lookup? problem = some text)
    (stops : problem.StopsAt text) : session.configuredText? problem = none := by
  rw [configuredText?, applyOrTune_of_stopsAt recorded stops]
  rfl

variable {options : SessionOptions} {table : Table} {first : Configured}
  {stale measured : Timing}

/-- Success with an empty table leaves a measured configuration on record. -/
private theorem exists_measured (fresh : applyOrTune ⟨options, .empty⟩ problem = .ok first)
    (succeeded : first.result = .ok text) :
    ∃ key configs measured config, Measures options problem key configs ∧
      first.session = afterSweep ⟨options, .empty⟩ problem key configs ∧
      first.session.table.find? key = some measured ∧
      problem.Usable measured.config config ∧ text = config.encode := by
  have refuses : ∀ text, Table.empty.lookup? problem = some text → problem.Refuses text := by
    intro text recorded
    obtain ⟨key, timing, _, found, _⟩ := Table.lookup?_eq_some_iff.mp recorded
    cases found
  rcases untuned_or_measures options problem with
    ⟨fault, untuned⟩ | ⟨key, configs, measures⟩
  · cases fresh.symm.trans (applyOrTune_of_untuned refuses (untuned .empty))
    cases succeeded
  · cases best : (afterSweep ⟨options, .empty⟩ problem key configs).table.find? key with
    | none =>
        obtain ⟨fault, failed⟩ : ∃ fault,
            applyOrTune ⟨options, .empty⟩ problem = .ok ⟨.error fault, _, _⟩ :=
          applyOrTune_of_best_refuses measures refuses (by simp [best])
        cases fresh.symm.trans failed
        cases succeeded
    | some measured =>
        obtain ⟨config, _, usable⟩ := Tuner.usable_of_find?_swept measures.records best
        cases fresh.symm.trans (applyOrTune_of_best_usable measures refuses best usable)
        cases succeeded
        exact ⟨key, configs, measured, config, measures, rfl, best, usable, rfl⟩

private theorem configuredText?_of_refuses (measures : Measures options problem key configs)
    (recorded : table.find? key = some stale) (refuses : problem.Refuses stale.config)
    (found : (afterSweep ⟨options, .empty⟩ problem key configs).table.find? key =
      some measured)
    (usable : problem.Usable measured.config config) :
    configuredText? ⟨options, table⟩ problem =
      if measured.time < stale.time then some config.encode else none := by
  have onlyStale : ∀ text, table.lookup? problem = some text → problem.Refuses text := by
    intro text lookedUp
    rw [Table.lookup?_of_signature measures.signed, recorded] at lookedUp
    cases lookedUp
    exact refuses
  have best : (afterSweep ⟨options, table⟩ problem key configs).table.find? key =
      if measured.time < stale.time then some measured else some stale := by
    rw [find?_afterSweep, recorded, found]
    rfl
  by_cases faster : measured.time < stale.time
  · rw [if_pos faster] at best
    have done : applyOrTune ⟨options, table⟩ problem = .ok _ :=
      applyOrTune_of_best_usable measures onlyStale best usable
    rw [configuredText?_of_applyOrTune done, if_pos faster]
    rfl
  · rw [if_neg faster] at best
    obtain ⟨fault, done⟩ : ∃ fault,
        applyOrTune ⟨options, table⟩ problem = .ok ⟨.error fault, _, _⟩ :=
      applyOrTune_of_best_refuses measures onlyStale (by simp [best, refuses])
    rw [configuredText?_of_applyOrTune done, if_neg faster]
    rfl

/-- A record that cannot be used keeps a problem from being configured, although it could be
with an empty table, exactly if its checks stop with an arithmetic fault or none of the
candidates that are measured is faster than the record claims. -/
theorem configuredText?_of_recorded
    (fresh : applyOrTune ⟨options, .empty⟩ problem = .ok first)
    (succeeded : first.result = .ok text) (signed : problem.signature = .ok key)
    (recorded : table.find? key = some stale) :
    ∃ measured, first.session.table.find? key = some measured ∧
      ((configuredText? ⟨options, table⟩ problem).isSome = true ↔
        (∃ config, problem.Usable stale.config config) ∨
          ¬problem.StopsAt stale.config ∧ measured.time < stale.time) ∧
      ∀ applied, configuredText? ⟨options, table⟩ problem = some applied →
        ∃ config, problem.Usable applied config ∧
          (problem.Usable stale.config config ∨ applied = text) := by
  obtain ⟨key, configs, measured, config, measures, tuned, found, usable, rfl⟩ :=
    exists_measured fresh succeeded
  cases measures.signed.symm.trans signed
  rw [tuned] at found
  have lookedUp : table.lookup? problem = some stale.config := by
    rw [Table.lookup?_of_signature signed, recorded]
    rfl
  refine ⟨measured, by rw [tuned, found], ?_⟩
  rcases problem.usable_or_stopsAt_or_refuses stale.config with
    ⟨kept, keptUsable⟩ | stops | refuses
  · have answer : configuredText? ⟨options, table⟩ problem = some kept.encode :=
      configuredText?_of_usable lookedUp keptUsable
    rw [answer]
    refine ⟨iff_of_true rfl (.inl ⟨kept, keptUsable⟩), ?_⟩
    intro applied same
    cases same
    exact ⟨kept, keptUsable.encode, .inl keptUsable⟩
  · have answer : configuredText? ⟨options, table⟩ problem = none :=
      configuredText?_of_stopsAt lookedUp stops
    rw [answer]
    refine ⟨iff_of_false (by simp) ?_, by simp⟩
    rintro (⟨config, staleUsable⟩ | ⟨continues, _⟩)
    · exact stops.not_usable staleUsable
    · exact continues stops
  · rw [configuredText?_of_refuses measures recorded refuses found usable]
    by_cases faster : measured.time < stale.time
    · rw [if_pos faster]
      refine ⟨iff_of_true rfl (.inr ⟨refuses.not_stopsAt, faster⟩), ?_⟩
      intro applied same
      cases same
      exact ⟨config, usable.encode, .inr rfl⟩
    · rw [if_neg faster]
      refine ⟨iff_of_false (by simp) ?_, by simp⟩
      rintro (⟨config, staleUsable⟩ | ⟨_, isFaster⟩)
      · exact refuses.not_usable staleUsable
      · exact faster isFaster

/-- One candidate, timed once. -/
def singleRun : SessionOptions :=
  { tuner := { level := .quick, warmupRuns := 0, runs := 1, maxCandidates := some 1 } }

/-- A record of an earlier version for the small product. -/
def outdated (time : Binary64) : Timing :=
  ⟨"v1:64,64,8,32,32,4,1,1,1", time⟩

/-- A session that has loaded the outdated record. -/
def withOutdated (time : Binary64) : Session :=
  ⟨singleRun, Table.ofRows [(Space.smallProduct.signatureText, outdated time)]⟩

theorem configuredText?_of_recorded_slow :
    ∃ first measured, applyOrTune ⟨singleRun, .empty⟩ Space.smallProduct = .ok first ∧
      first.session.table.find? Space.smallProduct.signatureText = some measured ∧
      measured.time < (outdated ⟨0x3ff0000000000000⟩).time ∧
      ((withOutdated ⟨0x3ff0000000000000⟩).configuredText? Space.smallProduct).isSome = true := by
  have text : configuredText? ⟨singleRun, .empty⟩ Space.smallProduct =
      some "v2:64,64,8,32,32,4,1,1,1" := by
    decide +kernel
  have recorded : ((applyOrTune ⟨singleRun, .empty⟩ Space.smallProduct).toOption.bind
      fun configured => configured.session.table.find? Space.smallProduct.signatureText) =
        some ⟨"v2:64,64,8,32,32,4,1,1,1", ⟨0x3f763c2ccf6c71d0⟩⟩ := by
    decide +kernel
  obtain ⟨first, done, succeeded⟩ := configuredText?_eq_some_iff.mp text
  rw [done] at recorded
  have stale : (withOutdated ⟨0x3ff0000000000000⟩).table.find? Space.smallProduct.signatureText =
      some (outdated ⟨0x3ff0000000000000⟩) := rfl
  obtain ⟨measured, found, succeeds, _⟩ := configuredText?_of_recorded done succeeded rfl stale
  cases found.symm.trans recorded
  have stopsNot : ¬Space.smallProduct.StopsAt (outdated ⟨0x3ff0000000000000⟩).config := by
    rintro ⟨fusible, _⟩
    revert fusible
    decide
  exact ⟨first, _, done, found, by decide, succeeds.mpr (.inr ⟨stopsNot, by decide⟩)⟩

/-- A microsecond on record for a text of another version is enough. -/
theorem configuredText?_outdated :
    configuredText? ⟨singleRun, .empty⟩ Space.smallProduct =
        some "v2:64,64,8,32,32,4,1,1,1" ∧
      (withOutdated ⟨0x3f50624dd2f1a9fc⟩).configuredText? Space.smallProduct = none := by
  decide +kernel

end Session

end KernelTuning
