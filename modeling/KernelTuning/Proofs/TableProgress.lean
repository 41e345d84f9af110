import KernelTuning.Proofs.MergedTables
import KernelTuning.Proofs.TuningReport
import KernelTuning.Session

/-!
# Progress of tables

Whatever is done with a table under some signatures, it makes progress: a record is only ever
replaced by a strictly faster one, and the records of all other signatures stay as they are.
-/

namespace KernelTuning

open Checked

namespace Table

/-- No record is lost, and one is only replaced by a strictly faster one. -/
def Retains (before after : Table) : Prop :=
  ∀ key timing, before.find? key = some timing →
    after.find? key = some timing ∨
      ∃ faster, after.find? key = some faster ∧ faster.time < timing.time

/-- Records were added or became faster, only under allowed signatures and with finite
times. -/
structure Progress (allowed : String → Prop) (before after : Table) : Prop where
  retained : Retains before after
  others : ∀ key, ¬allowed key → after.find? key = before.find? key
  finite : ∀ key timing, after.find? key = some timing →
    before.find? key = some timing ∨ timing.time.isFinite = true

variable {allowed larger : String → Prop} {before middle after table : Table}

theorem Retains.trans (first : Retains before middle) (second : Retains middle after) :
    Retains before after := by
  intro key timing found
  rcases first key timing found with kept | ⟨faster, replaced, less⟩
  · exact second key timing kept
  · rcases second key faster replaced with kept | ⟨fastest, replacedAgain, lessAgain⟩
    · exact .inr ⟨faster, kept, less⟩
    · exact .inr ⟨fastest, replacedAgain, Binary64.lt_trans lessAgain less⟩

theorem Progress.refl (allowed : String → Prop) (table : Table) :
    Progress allowed table table where
  retained _ _ found := .inl found
  others _ _ := rfl
  finite _ _ found := .inl found

theorem Progress.trans (first : Progress allowed before middle)
    (second : Progress allowed middle after) : Progress allowed before after where
  retained := first.retained.trans second.retained
  others := by
    intro key excluded
    rw [second.others key excluded, first.others key excluded]
  finite := by
    intro key timing found
    rcases second.finite key timing found with earlier | finite
    · exact first.finite key timing earlier
    · exact .inr finite

theorem Progress.weaken (progress : Progress allowed before after)
    (subset : ∀ key, allowed key → larger key) : Progress larger before after where
  retained := progress.retained
  others key excluded := progress.others key fun isAllowed => excluded (subset key isAllowed)
  finite := progress.finite

theorem Progress.allFinite (progress : Progress allowed before after)
    (finite : before.AllFinite) : after.AllFinite := by
  intro key timing found
  rcases progress.finite key timing found with earlier | isFinite
  · exact finite key timing earlier
  · exact isFinite

theorem Progress.update (table : Table) {key : String} (isAllowed : allowed key)
    (timing : Timing) : Progress allowed table (table.update key timing).1 where
  retained := by
    intro other current found
    rw [find?_update]
    split
    · rename_i replaced
      obtain ⟨rfl, improves⟩ := replaced
      refine .inr ⟨timing, rfl, ?_⟩
      simp only [isImprovement, found, Bool.and_eq_true, decide_eq_true_eq] at improves
      exact improves.2
    · exact .inl found
  others := by
    intro other excluded
    rw [find?_update, if_neg]
    rintro ⟨rfl, _⟩
    exact excluded isAllowed
  finite := by
    intro other current found
    rw [find?_update] at found
    split at found
    · rename_i replaced
      cases found
      simp only [isImprovement, Bool.and_eq_true] at replaced
      exact .inr replaced.2.1
    · exact .inl found

end Table

namespace Tuner

open Table Timing

variable {options : TunerOptions} {benchmark : Benchmark} {problem : Problem} {key : String}

/-- What a call of the tuner does to a table does not depend on the table: it always reports a
fault, or always sweeps over the same configurations. -/
theorem exists_tune (options : TunerOptions) (benchmark : Benchmark) (problem : Problem) :
    (∃ fault, ∀ table, (tune options benchmark problem table).run = .ok (.error fault)) ∨
      ∃ key configs, problem.signature = .ok key ∧
        (∀ config, config ∈ configs → problem.Records config) ∧
        ∀ table, Passes (tune options benchmark problem table)
          ((swept options benchmark problem key table configs).outcome key,
            (swept options benchmark problem key table configs).table) := by
  unfold tune
  cases signed : problem.signature with
  | error fault => exact .inl ⟨_, fun _ => rfl⟩
  | ok key =>
      cases built : Space.build problem options.level with
      | error fault => exact .inl ⟨_, fun _ => rfl⟩
      | ok space =>
          have records : ∀ config, config ∈ candidates options problem space →
              problem.Records config :=
            fun _ member => records_of_mem_candidates built member
          cases isEmpty : (candidates options problem space).isEmpty with
          | true =>
              refine .inl ⟨.noCandidates key options.level space.size, ?_⟩
              intro table
              simp only [isEmpty, if_true]
              rfl
          | false =>
              refine .inr ⟨key, _, rfl, records, ?_⟩
              intro table
              simp only [isEmpty, sweep_eq_swept records]
              rfl

theorem progress_swept (options : TunerOptions) (benchmark : Benchmark) (problem : Problem)
    {allowed : String → Prop} (isAllowed : allowed key) (table : Table) (configs : List Config) :
    Progress allowed table (swept options benchmark problem key table configs).table := by
  induction configs using List.reverseRecOn with
  | nil => exact .refl allowed table
  | append_singleton configs config induction =>
      rw [swept_concat]
      cases meanTime options benchmark problem config with
      | none => exact induction
      | some time => exact induction.trans (.update _ isAllowed _)

end Tuner

namespace Session

open Tuner

/-- What a session does to a table, as a call of the tuner does it. -/
theorem exists_tune (options : SessionOptions) (benchmark : Benchmark) (problem : Problem) :
    (∃ fault, ∀ table, ((Session.mk options table).tune benchmark problem).run =
        .ok (.error fault)) ∨
      ∃ key configs, problem.signature = .ok key ∧
        (∀ config, config ∈ configs → problem.Records config) ∧
        ∀ table, Passes ((Session.mk options table).tune benchmark problem)
          ((swept options.tuner benchmark problem key table configs).outcome key,
            ⟨options, (swept options.tuner benchmark problem key table configs).table⟩) := by
  rcases Tuner.exists_tune options.tuner benchmark problem with
    ⟨fault, untuned⟩ | ⟨key, configs, signed, records, tuned⟩
  · refine .inl ⟨fault, ?_⟩
    intro table
    rw [Session.tune, ExceptT.run_bind, untuned table]
    rfl
  · refine .inr ⟨key, configs, signed, records, ?_⟩
    intro table
    exact passes_bind.mpr ⟨_, tuned table, passes_pure.mpr rfl⟩

end Session

end KernelTuning
