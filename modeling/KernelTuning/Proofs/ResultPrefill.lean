import KernelTuning.Config.Apply

/-!
# Prefill requests

Replacing the request of the result argument sorts the requests, but only when there
is a new one.  The requests of every other argument keep their order either way, and
a list that is in order stays in order.
-/

namespace KernelTuning

namespace Prefill

/-- The order in which requests are brought: the one of their arguments. -/
def precedes (first second : Prefill) : Bool :=
  decide (first.argument ≤ second.argument)

/-- Requests stand in the order of their arguments. -/
def Ordered (requests : List Prefill) : Prop :=
  requests.Pairwise fun first second => first.precedes second

private theorem precedes_trans (first second third : Prefill)
    (before : first.precedes second = true) (after : second.precedes third = true) :
    first.precedes third = true := by
  simp only [precedes, decide_eq_true_eq] at *
  exact UInt64.le_trans before after

private theorem precedes_total (first second : Prefill) :
    (first.precedes second || second.precedes first) = true := by
  simp only [precedes, Bool.or_eq_true, decide_eq_true_eq]
  exact UInt64.le_total _ _

private theorem ordered_mergeSort (requests : List Prefill) :
    Ordered (requests.mergeSort precedes) :=
  List.pairwise_mergeSort precedes_trans precedes_total requests

/-- Sorting does not reorder those of the requests that are in order already. -/
theorem filter_mergeSort_of_ordered {requests : List Prefill} {keep : Prefill → Bool}
    (ordered : Ordered (requests.filter keep)) :
    (requests.mergeSort precedes).filter keep = requests.filter keep := by
  have kept : (requests.filter keep).Sublist (requests.mergeSort precedes) :=
    List.sublist_mergeSort precedes_trans precedes_total ordered List.filter_sublist
  have keptTwice :
      (requests.filter keep).Sublist ((requests.mergeSort precedes).filter keep) := by
    simpa using kept.filter keep
  have sameLength :=
    ((List.mergeSort_perm requests precedes).filter keep).length_eq
  exact (keptTwice.eq_of_length sameLength.symm).symm

/-- Requests for one argument are in order, whatever their values. -/
private theorem ordered_of_argument {requests : List Prefill} {argument : UInt64}
    (same : ∀ request, request ∈ requests → request.argument = argument) :
    Ordered requests := by
  refine List.pairwise_of_forall_mem_list ?_
  intro first firstMember second secondMember
  simp [precedes, same first firstMember, same second secondMember]

end Prefill

namespace Problem

open Prefill

/-- The requests for one argument. -/
def requestsFor (problem : Problem) (argument : UInt64) : List Prefill :=
  problem.prefill.filter (·.argument == argument)

/-- The requests for all arguments but the result. -/
def otherRequests (problem : Problem) : List Prefill :=
  problem.prefill.filter (·.argument != resultArgument)

theorem prefill_setResultPrefill_some (problem : Problem) (value : InitialValue) :
    (problem.setResultPrefill (some value)).prefill =
      (problem.otherRequests ++ [Prefill.mk resultArgument value]).mergeSort precedes :=
  rfl

theorem prefill_withConfig (problem : Problem) (config : Config) :
    (problem.withConfig config).prefill =
      (problem.setResultPrefill (problem.resultPrefill config)).prefill := by
  unfold withConfig setResultPrefill
  cases problem.resultPrefill config <;> rfl

theorem mem_setResultPrefill {problem : Problem} {value : Option InitialValue} {request : Prefill}
    (member : request ∈ (problem.setResultPrefill value).prefill) :
    request ∈ problem.prefill ∨ value = some request.value := by
  cases value with
  | none => exact .inl (List.mem_filter.mp member).1
  | some value =>
      rw [prefill_setResultPrefill_some, List.mem_mergeSort, List.mem_append,
        List.mem_singleton] at member
      rcases member with other | rfl
      · exact .inl (List.mem_filter.mp other).1
      · exact .inr rfl

theorem filter_otherRequests (problem : Problem) {keep : Prefill → Bool}
    (others : ∀ request, keep request = true → request.argument ≠ resultArgument) :
    problem.otherRequests.filter keep = problem.prefill.filter keep := by
  unfold otherRequests
  rw [List.filter_filter]
  refine List.filter_congr ?_
  intro request _
  cases kept : keep request with
  | false => rfl
  | true => simp [others request kept]

/-- Setting the request of the result keeps the other requests, and it keeps the order of
those among them that are in order. -/
theorem filter_setResultPrefill
    (problem : Problem) (value : Option InitialValue) {keep : Prefill → Bool}
    (others : ∀ request, keep request = true → request.argument ≠ resultArgument)
    (ordered : Ordered (problem.prefill.filter keep)) :
    (problem.setResultPrefill value).prefill.filter keep = problem.prefill.filter keep := by
  cases value with
  | none => exact problem.filter_otherRequests others
  | some value =>
      have dropped : keep (Prefill.mk resultArgument value) = false := by
        cases kept : keep (Prefill.mk resultArgument value) with
        | false => rfl
        | true => exact absurd rfl (others _ kept)
      have unsorted :
          (problem.otherRequests ++ [Prefill.mk resultArgument value]).filter keep =
            problem.prefill.filter keep := by
        rw [List.filter_append, problem.filter_otherRequests others]
        simp [dropped]
      rw [prefill_setResultPrefill_some, filter_mergeSort_of_ordered, unsorted]
      rw [unsorted]
      exact ordered

theorem requestsFor_setResultPrefill
    (problem : Problem) (value : Option InitialValue) {argument : UInt64}
    (other : argument ≠ resultArgument) :
    (problem.setResultPrefill value).requestsFor argument = problem.requestsFor argument := by
  refine filter_setResultPrefill problem value ?_ ?_
  · intro request isOther
    rw [eq_of_beq isOther]
    exact other
  · have same : ∀ request, request ∈ problem.requestsFor argument →
        request.argument = argument := by
      intro request member
      exact eq_of_beq (List.mem_filter.mp member).2
    exact ordered_of_argument same

theorem otherRequests_setResultPrefill
    (problem : Problem) (value : Option InitialValue) (ordered : Ordered problem.prefill) :
    (problem.setResultPrefill value).otherRequests = problem.otherRequests := by
  refine filter_setResultPrefill problem value ?_ (ordered.filter _)
  intro request isOther
  exact bne_iff_ne.mp isOther

theorem requestsFor_resultArgument
    (problem : Problem) (value : Option InitialValue) :
    (problem.setResultPrefill value).requestsFor resultArgument =
      (value.map (Prefill.mk resultArgument)).toList := by
  have noOther :
      problem.otherRequests.filter (·.argument == resultArgument) = [] := by
    refine List.filter_eq_nil_iff.mpr ?_
    intro request member
    simpa using (List.mem_filter.mp member).2
  unfold requestsFor
  cases value with
  | none => exact noOther
  | some value =>
      have unsorted :
          (problem.otherRequests ++ [Prefill.mk resultArgument value]).filter
              (·.argument == resultArgument) = [Prefill.mk resultArgument value] := by
        rw [List.filter_append, noOther]
        simp
      rw [prefill_setResultPrefill_some, filter_mergeSort_of_ordered, unsorted]
      · rfl
      · rw [unsorted]
        exact List.pairwise_singleton _ _

theorem ordered_setResultPrefill_some (problem : Problem) (value : InitialValue) :
    Ordered (problem.setResultPrefill (some value)).prefill :=
  ordered_mergeSort _

/-- Without a new request the list is not sorted. -/
theorem arranged_setResultPrefill (problem : Problem) (value : Option InitialValue) :
    (problem.setResultPrefill value).otherRequests = problem.otherRequests ∨
      Ordered (problem.setResultPrefill value).prefill := by
  cases value with
  | none =>
      left
      apply problem.filter_otherRequests
      intro request isOther
      exact bne_iff_ne.mp isOther
  | some value =>
      right
      exact problem.ordered_setResultPrefill_some value

theorem ordered_setResultPrefill
    (problem : Problem) (value : Option InitialValue) (ordered : Ordered problem.prefill) :
    Ordered (problem.setResultPrefill value).prefill := by
  cases value with
  | none => exact ordered.filter _
  | some value => exact problem.ordered_setResultPrefill_some value

end Problem

end KernelTuning
