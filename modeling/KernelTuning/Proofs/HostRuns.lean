import KernelTuning.Proofs.ConfigGrammar
import KernelTuning.Proofs.ResultPrefill
import KernelTuning.Proofs.TableRecords
import KernelTuning.Proofs.TuningSpace

/-!
# Runs of a host

A host configures a problem again and again: from slots filled out of tuning spaces,
from texts and from tables, some of which may be refused.  After every such run the
problem is either untouched, or what it was at first with exactly the last
configuration applied.
-/

namespace KernelTuning

open Checked

namespace Problem

/-- What every applied configuration leaves alone. -/
structure Tracks (start problem : Problem) : Prop where
  written :
    problem = { start with config := problem.config, prefill := problem.prefill }
  requests : ∀ argument, argument ≠ 2 →
    problem.requestsFor argument = start.requestsFor argument
  arranged : problem.otherRequests = start.otherRequests ∨
    Prefill.Ordered problem.otherRequests
  ordered : Prefill.Ordered start.prefill →
    Prefill.Ordered problem.prefill ∧ problem.otherRequests = start.otherRequests

/-- The problem is the one at the start with a configuration applied, and nothing is
left of the ones applied before.  The result is the kernel's third argument; the
number whose bits are all zero is the positive zero. -/
structure Settled (start problem : Problem) (entry : Config) : Prop
    extends Tracks start problem where
  config : problem.config = some entry.encode
  readable : Config.decode entry.encode = .ok entry
  accepted : problem.Accepts entry
  result : problem.requestsFor 2 =
    if 1 < entry.splitK then
      [⟨2, if start.outType = .i8 ∨ start.outType = .i32 then .int 0 else .float ⟨0⟩⟩]
    else []
  others : problem.otherRequests.Perm start.otherRequests
  sorted : 1 < entry.splitK → Prefill.Ordered problem.prefill

theorem Tracks.refl (problem : Problem) : Tracks problem problem where
  written := rfl
  requests _ _ := rfl
  arranged := .inl rfl
  ordered ordered := ⟨ordered, rfl⟩

private theorem otherRequests_congr {problem other : Problem}
    (same : problem.prefill = other.prefill) :
    problem.otherRequests = other.otherRequests :=
  congrArg (List.filter _) same

theorem Tracks.withConfig {start problem : Problem}
    (tracks : Tracks start problem) (config : Config) :
    Tracks start (problem.withConfig config) := by
  have replaced := problem.prefill_withConfig config
  have others := otherRequests_congr replaced
  constructor
  · rw [withConfig_eq, tracks.written]
  · intro argument other
    rw [← tracks.requests argument other,
      ← problem.requestsFor_setResultPrefill (problem.resultPrefill config) other]
    exact congrArg (List.filter _) replaced
  · rw [others]
    rcases problem.arranged_setResultPrefill (problem.resultPrefill config) with same | sorted
    · rw [same]
      exact tracks.arranged
    · exact .inr (sorted.filter _)
  · intro startOrdered
    obtain ⟨ordered, sameOthers⟩ := tracks.ordered startOrdered
    rw [replaced, others, ← sameOthers]
    exact ⟨problem.ordered_setResultPrefill _ ordered,
      problem.otherRequests_setResultPrefill _ ordered⟩

/-- Equal requests for each argument leave only the order between arguments open. -/
theorem Tracks.perm_otherRequests {start problem : Problem}
    (tracks : Tracks start problem) : problem.otherRequests.Perm start.otherRequests := by
  have otherwise : ∀ (problem : Problem) (request : Prefill),
      problem.otherRequests.count request =
        if request.argument = resultArgument then 0
        else (problem.requestsFor request.argument).count request := by
    intro problem request
    unfold otherRequests requestsFor
    by_cases result : request.argument = resultArgument
    · rw [if_pos result]
      apply List.count_eq_zero.mpr
      intro member
      simp [result] at member
    · rw [if_neg result, List.count_filter (by simpa using result),
        List.count_filter (by simp)]
  apply List.perm_iff_count.mpr
  intro request
  rw [otherwise, otherwise]
  by_cases result : request.argument = resultArgument
  · rw [if_pos result, if_pos result]
  · rw [if_neg result, if_neg result, tracks.requests _ result]

private theorem zeroOf_eq (type : ElementType) :
    InitialValue.zeroOf type =
      if type = .i8 ∨ type = .i32 then .int 0 else .float ⟨0⟩ := by
  cases type <;> rfl

theorem settled_withConfig {start problem : Problem} {entry : Config}
    (tracks : Tracks start problem) (positive : entry.Positive)
    (accepted : problem.Accepts entry) : Settled start (problem.withConfig entry) entry where
  toTracks := tracks.withConfig entry
  config := by
    rw [withConfig_eq]
  readable := Config.decode_encode positive
  accepted := (accepts_congr (problem.kernel_withConfig entry)).mpr accepted
  result := by
    have outType : problem.outType = start.outType := by
      rw [tracks.written]
    have replaced :
        (problem.withConfig entry).requestsFor resultArgument =
          (problem.setResultPrefill (problem.resultPrefill entry)).requestsFor
            resultArgument :=
      congrArg (List.filter _) (problem.prefill_withConfig entry)
    refine replaced.trans ((requestsFor_resultArgument _ _).trans ?_)
    unfold resultPrefill
    by_cases splits : 1 < entry.splitK
    · rw [if_pos splits, if_pos splits, outType, zeroOf_eq]
      rfl
    · rw [if_neg splits, if_neg splits]
      rfl
  others := (tracks.withConfig entry).perm_otherRequests
  sorted splits := by
    have request : problem.resultPrefill entry = some (.zeroOf problem.outType) :=
      if_pos splits
    rw [prefill_withConfig, request]
    exact problem.ordered_setResultPrefill_some _

end Problem

namespace Host

open Problem

/-! ## One call -/

/-- A slot that has only been filled from tuning spaces. -/
inductive Filled : Slot → Prop
  | empty : Filled none
  | fill {problem : Problem} {level : Level} {space : Space} {slot : Slot}
      (built : space? problem level = some space) (filled : Filled slot) (index : Nat) :
      Filled (fillSlot space index slot).2

theorem Filled.positive {entry : Config} (filled : Filled (some entry)) :
    entry.Positive := by
  generalize isFilled : some entry = slot at filled
  induction filled with
  | empty => cases isFilled
  | @fill problem level space slot built filled index induction =>
      have isBuilt : Space.build problem level = .ok space := by
        unfold space? at built
        cases outcome : Space.build problem level with
        | error fault =>
            rw [outcome] at built
            cases built
        | ok result =>
            rw [outcome] at built
            cases built
            rfl
      unfold fillSlot at isFilled
      cases found : space.get? index with
      | none =>
          rw [found] at isFilled
          exact induction isFilled
      | some config =>
          rw [found] at isFilled
          cases isFilled
          have member := Space.mem_valid_of_get? found
          exact (Space.modest_of_mem_valid isBuilt member).positive

/-- A call that may configure a problem. -/
inductive Call where
  | fromSlot (slot : Slot) (filled : Filled slot)
  | fromText (text : String)
  | fromTable (table : Table)

namespace Call

def perform (problem : Problem) : Call → Checked (Bool × Problem)
  | .fromSlot slot _ => setFromSlot problem slot
  | .fromText text => setFromText problem text
  | .fromTable table => setFromTable problem table

/-- The configuration that the call tries to apply. -/
def config? (problem : Problem) : Call → Option Config
  | .fromSlot slot _ => slot
  | .fromText text => (Config.decode text).toOption
  | .fromTable table =>
      (table.lookup? problem).bind fun text => (Config.decode text).toOption

theorem eq_of_perform_eq_false {problem next : Problem} {call : Call}
    (refused : call.perform problem = .ok (false, next)) : next = problem := by
  cases call with
  | fromSlot slot filled =>
      cases slot with
      | none =>
          cases refused
          rfl
      | some entry => exact eq_of_settle_eq_false refused
  | fromText text => exact eq_of_settle_eq_false refused
  | fromTable table => exact Table.eq_of_applyBest_eq_false refused

private theorem applied_of_passes_applyText {problem next : Problem} {text : String}
    (applied : Passes (problem.applyText text) next) :
    ∃ entry, (Config.decode text).toOption = some entry ∧ entry.Positive ∧
      problem.Accepts entry ∧ next = problem.withConfig entry := by
  obtain ⟨entry, read, entryApplied⟩ := passes_applyText.mp applied
  obtain ⟨accepted, configured⟩ := passes_apply.mp entryApplied
  have isRead : (Config.decode text).toOption = some entry := by
    rw [read]
    rfl
  exact ⟨entry, isRead, Config.positive_of_decode read, accepted, configured.symm⟩

/-- A call that is answered by true applies its configuration. -/
theorem applied_of_perform_eq_true {problem next : Problem} {call : Call}
    (answered : call.perform problem = .ok (true, next)) :
    ∃ entry, call.config? problem = some entry ∧ entry.Positive ∧
      problem.Accepts entry ∧ next = problem.withConfig entry := by
  cases call with
  | fromSlot slot filled =>
      cases slot with
      | none => cases answered
      | some entry =>
          have applied : Passes (problem.apply entry) next :=
            settle_eq_true_iff.mp answered
          obtain ⟨accepted, configured⟩ := passes_apply.mp applied
          exact ⟨entry, rfl, filled.positive, accepted, configured.symm⟩
  | fromText text => exact applied_of_passes_applyText (settle_eq_true_iff.mp answered)
  | fromTable table =>
      obtain ⟨text, recorded, _, applied⟩ := Table.applyBest_eq_true_iff.mp answered
      have attempted :
          (Call.fromTable table).config? problem = (Config.decode text).toOption := by
        simp only [config?, recorded, Option.bind_some]
      rw [attempted]
      exact applied_of_passes_applyText applied

end Call

/-! ## Many calls -/

/-- What calls have led to: the problem, their answers with the latest one first, and
the configuration of the latest one that was answered by true. -/
structure Run where
  problem : Problem
  answers : List (Option Bool) := []
  entry : Option Config := none

namespace Run

/-- A call that stops with an arithmetic fault has no answer and changes nothing. -/
def next (run : Run) (call : Call) : Run :=
  match call.perform run.problem with
  | .error _ => { run with answers := none :: run.answers }
  | .ok (answer, problem) =>
      { problem := problem
        answers := some answer :: run.answers
        entry := if answer then call.config? run.problem else run.entry }

def ofCalls (start : Problem) (calls : List Call) : Run :=
  calls.foldl next { problem := start }

/-- What holds after every call. -/
structure Consistent (start : Problem) (run : Run) : Prop where
  tracks : Tracks start run.problem
  untouched : some true ∉ run.answers → run.problem = start
  configured : some true ∈ run.answers →
    ∃ entry, run.entry = some entry ∧ Settled start run.problem entry

private theorem consistent_start (start : Problem) : Consistent start { problem := start } where
  tracks := .refl start
  untouched _ := rfl
  configured answered := by
    cases answered

private theorem Consistent.unanswered {start : Problem} {run : Run}
    (consistent : Consistent start run) {answer : Option Bool}
    (different : answer ≠ some true) :
    Consistent start { run with answers := answer :: run.answers } := by
  have earlier : some true ∈ answer :: run.answers ↔ some true ∈ run.answers := by
    simp [different.symm]
  constructor
  · exact consistent.tracks
  · intro never
    exact consistent.untouched fun member => never (earlier.mpr member)
  · intro answered
    exact consistent.configured (earlier.mp answered)

theorem consistent_next {start : Problem} {run : Run}
    (consistent : Consistent start run) (call : Call) :
    Consistent start (run.next call) := by
  unfold next
  cases performed : call.perform run.problem with
  | error fault => exact consistent.unanswered (by simp)
  | ok outcome =>
      obtain ⟨answer, problem⟩ := outcome
      cases answer with
      | false =>
          have same : problem = run.problem := Call.eq_of_perform_eq_false performed
          subst same
          exact consistent.unanswered (by simp)
      | true =>
          obtain ⟨entry, attempted, positive, accepted, rfl⟩ :=
            Call.applied_of_perform_eq_true performed
          have settled := settled_withConfig consistent.tracks positive accepted
          constructor
          · exact settled.toTracks
          · intro unanswered
            exact absurd List.mem_cons_self unanswered
          · intro _
            exact ⟨entry, attempted, settled⟩

private theorem consistent_foldl {start : Problem} (calls : List Call) :
    ∀ {run : Run}, Consistent start run → Consistent start (calls.foldl next run) := by
  induction calls with
  | nil =>
      intro run consistent
      exact consistent
  | cons call calls induction =>
      intro run consistent
      exact induction (consistent_next consistent call)

/-- After every run the problem is the one at the start, or the one at the start with
exactly the last configuration applied that a call was answered by true for, and
a refused call changes nothing. -/
theorem ofCalls_consistent (start : Problem) (calls : List Call) :
    Consistent start (ofCalls start calls) ∧
      ∀ (call : Call) problem,
        call.perform (ofCalls start calls).problem = .ok (false, problem) →
          problem = (ofCalls start calls).problem := by
  constructor
  · exact consistent_foldl calls (consistent_start start)
  · intro call problem refused
    exact Call.eq_of_perform_eq_false refused

end Run

end Host

end KernelTuning
