import KernelTuning.Host.Interface
import KernelTuning.Proofs.ConfigChecks

/-!
# Records and their use

What an update does to the record of each signature, and what applying the record of
a problem asks for.
-/

namespace KernelTuning

open Checked

namespace Problem

theorem signature_eq_ok_iff {problem : Problem} {key : String} :
    problem.signature = .ok key ↔
      problem.validate = .ok () ∧ problem.signatureText = key := by
  unfold signature
  cases problem.validate with
  | error fault => simp
  | ok accepted => simp

/-- Neither buffers nor what tuning writes into a problem are part of its signature. -/
theorem signature_kernel (problem : Problem) :
    problem.kernel.signature = problem.signature :=
  rfl

theorem signature_congr {problem other : Problem} (same : problem.kernel = other.kernel) :
    problem.signature = other.signature := by
  rw [← signature_kernel, same, signature_kernel]

theorem canFuseText_iff {problem : Problem} {text : String} :
    problem.canFuseText text = true ↔
      ∃ config, Config.decode text = .ok config ∧ problem.canFuse config = true := by
  unfold canFuseText
  cases Config.decode text <;> simp

end Problem

namespace Host

variable {ε : Type} {problem configured : Problem} {attempt : ExceptT ε Checked Problem}

theorem settle_eq_true_iff :
    settle problem attempt = .ok (true, configured) ↔ Passes attempt configured := by
  unfold settle Passes
  rw [bind_eq_ok_iff]
  constructor
  · rintro ⟨answer, attemptRun, settled⟩
    cases answer with
    | error error => cases settled
    | ok result =>
        cases settled
        exact attemptRun
  · intro attemptRun
    exact ⟨.ok configured, attemptRun, rfl⟩

theorem eq_of_settle_eq_false
    (refused : settle problem attempt = .ok (false, configured)) :
    configured = problem := by
  unfold settle at refused
  obtain ⟨answer, _, settled⟩ := bind_eq_ok_iff.mp refused
  cases answer with
  | error error =>
      cases settled
      rfl
  | ok result => cases settled

end Host

namespace Table

theorem find?_update (table : Table) (signature other : String) (timing : Timing) :
    (table.update signature timing).1.find? other =
      if other = signature ∧ table.isImprovement signature timing = true then some timing
      else table.find? other := by
  unfold update
  cases table.isImprovement signature timing with
  | false => simp
  | true => simp [find?_insert]

theorem lookup?_of_signature {table : Table} {problem : Problem} {key : String}
    (signed : problem.signature = .ok key) :
    table.lookup? problem = (table.find? key).map Timing.config := by
  unfold lookup?
  rw [signed]

theorem lookup?_eq_some_iff {table : Table} {problem : Problem} {text : String} :
    table.lookup? problem = some text ↔
      ∃ key timing, problem.signature = .ok key ∧ table.find? key = some timing ∧
        timing.config = text := by
  unfold lookup?
  cases problem.signature with
  | error fault => simp
  | ok key => simp

theorem applyBest_of_lookup?
    {table : Table} {problem : Problem} {text : String}
    (recorded : table.lookup? problem = some text) :
    table.applyBest problem =
      if problem.canFuseText text then Host.settle problem (problem.applyText text)
      else .ok (false, problem) := by
  unfold applyBest Host.settle
  rw [recorded]
  cases fusible : problem.canFuseText text with
  | false => simp [fusible]
  | true =>
      simp only [fusible, if_true]
      cases (problem.applyText text).run with
      | error fault => rfl
      | ok answer => cases answer <;> rfl

/-- A recorded configuration is applied if it can be read, fused and type-checked. -/
theorem applyBest_eq_true_iff {table : Table} {problem configured : Problem} :
    table.applyBest problem = .ok (true, configured) ↔
      ∃ text, table.lookup? problem = some text ∧
        problem.canFuseText text = true ∧ Passes (problem.applyText text) configured := by
  cases recorded : table.lookup? problem with
  | none =>
      unfold applyBest
      simp [recorded]
  | some text =>
      rw [applyBest_of_lookup? recorded]
      cases fusible : problem.canFuseText text with
      | false => simp [fusible]
      | true => simp [fusible, Host.settle_eq_true_iff]

theorem eq_of_applyBest_eq_false {table : Table} {problem configured : Problem}
    (refused : table.applyBest problem = .ok (false, configured)) :
    configured = problem := by
  cases recorded : table.lookup? problem with
  | none =>
      unfold applyBest at refused
      rw [recorded] at refused
      cases refused
      rfl
  | some text =>
      rw [applyBest_of_lookup? recorded] at refused
      cases fusible : problem.canFuseText text with
      | false =>
          rw [fusible] at refused
          cases refused
          rfl
      | true =>
          rw [fusible] at refused
          exact Host.eq_of_settle_eq_false refused

end Table

end KernelTuning
