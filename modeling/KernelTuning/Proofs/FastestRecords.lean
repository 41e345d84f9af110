import KernelTuning.Proofs.TableRecords
import Mathlib.Data.List.Dedup
import Mathlib.Data.List.Induction

/-!
# Fastest records

A table answers each signature with the earliest of its fastest finite timings.  The
history of a signature is therefore all that its record depends on, and a reordered
history changes at most which of several equally fast configurations is recorded.
-/

namespace KernelTuning

namespace Binary64

/-- A finite number cannot be skipped by the order: whatever is below another number
is below the finite one, or the finite one is below that number. -/
theorem lt_or_lt_of_lt {x y : Binary64} (less : x < y) {between : Binary64}
    (finite : between.isFinite = true) : x < between ∨ between < y := by
  have order : lt x y = true := less
  have number := isNaN_eq_false_of_isFinite finite
  simp only [lt, Bool.and_eq_true, Bool.not_eq_true', decide_eq_true_eq] at order
  obtain ⟨⟨xNumber, yNumber⟩, ranks⟩ := order
  change lt x between = true ∨ lt between y = true
  simp only [lt, xNumber, yNumber, number, Bool.not_false, Bool.true_and,
    decide_eq_true_eq]
  omega

private theorem rank_eq_of_not_lt {x y : Binary64}
    (left : x.isFinite = true) (right : y.isFinite = true)
    (notLess : ¬x < y) (notGreater : ¬y < x) : x.rank = y.rank := by
  rw [lt_iff_rank_lt left right] at notLess
  rw [lt_iff_rank_lt right left] at notGreater
  omega

end Binary64

namespace Timing

/-- The timing is the earliest of the fastest ones in a history. -/
def FirstFastest (history : List Timing) (best : Timing) : Prop :=
  ∃ earlier later, history = earlier ++ best :: later ∧
    (∀ timing, timing ∈ earlier → best.time < timing.time) ∧
    ∀ timing, timing ∈ later → ¬timing.time < best.time

/-- The timing is finite and strictly faster than all of a history. -/
def Beats (history : List Timing) (timing : Timing) : Prop :=
  timing.time.isFinite = true ∧ ∀ other, other ∈ history → timing.time < other.time

instance (history : List Timing) (timing : Timing) : Decidable (Beats history timing) :=
  have : Decidable (∀ other, other ∈ history → timing.time < other.time) :=
    List.decidableBAll _ _
  inferInstanceAs (Decidable (_ ∧ _))

/-- What is on record after a history. -/
inductive Recorded : List Timing → Option Timing → Prop
  | nothing : Recorded [] none
  | best {history : List Timing} {best : Timing} (first : FirstFastest history best) :
      Recorded history (some best)

/-- Only the oldest timing of a history may be infinite or no number. -/
def FiniteSince (history : List Timing) : Prop :=
  ∀ timing, timing ∈ history.tail → timing.time.isFinite = true

namespace FirstFastest

variable {history : List Timing} {best : Timing}

theorem mem (first : FirstFastest history best) : best ∈ history := by
  obtain ⟨earlier, later, rfl, _, _⟩ := first
  exact List.mem_append_right _ List.mem_cons_self

theorem not_lt (first : FirstFastest history best) :
    ∀ timing, timing ∈ history → ¬timing.time < best.time := by
  obtain ⟨earlier, later, rfl, slower, notFaster⟩ := first
  intro timing member less
  rcases List.mem_append.mp member with before | after
  · exact Binary64.lt_irrefl _ (Binary64.lt_trans less (slower timing before))
  · rcases List.mem_cons.mp after with rfl | behind
    · exact Binary64.lt_irrefl _ less
    · exact notFaster timing behind less

theorem unique {other : Timing}
    (first : FirstFastest history best) (otherFirst : FirstFastest history other) :
    best = other := by
  have notFaster := first.not_lt other otherFirst.mem
  have otherNotFaster := otherFirst.not_lt best first.mem
  obtain ⟨earlier, later, rfl, slower, _⟩ := first
  obtain ⟨otherEarlier, otherLater, same, otherSlower, _⟩ := otherFirst
  -- If one stood before the other, the later one would have to be strictly faster.
  rcases List.append_eq_append_iff.mp same with ⟨gap, rfl, rest⟩ | ⟨gap, rfl, rest⟩
  · cases gap with
    | nil => exact (List.cons.inj rest).1
    | cons head gap =>
        obtain ⟨rfl, _⟩ := List.cons.inj rest
        exact absurd (otherSlower best (by simp)) notFaster
  · cases gap with
    | nil => exact (List.cons.inj rest).1.symm
    | cons head gap =>
        obtain ⟨rfl, _⟩ := List.cons.inj rest
        exact absurd (slower other (by simp)) otherNotFaster

/-- It suffices to be faster than the best one: what came after it is finite. -/
theorem lt_all_iff {timing : Timing}
    (first : FirstFastest history best) (finite : FiniteSince history) :
    (∀ other, other ∈ history → timing.time < other.time) ↔ timing.time < best.time := by
  constructor
  · intro fastest
    exact fastest best first.mem
  · obtain ⟨earlier, later, rfl, slower, notFaster⟩ := first
    intro faster other member
    rcases List.mem_append.mp member with before | after
    · exact Binary64.lt_trans faster (slower other before)
    · rcases List.mem_cons.mp after with rfl | behind
      · exact faster
      · have otherFinite : other.time.isFinite = true := by
          apply finite
          cases earlier with
          | nil => exact behind
          | cons head earlier => simp [behind]
        rcases Binary64.lt_or_lt_of_lt faster otherFinite with below | above
        · exact below
        · exact absurd above (notFaster other behind)

private theorem append_slower {timing : Timing}
    (first : FirstFastest history best) (notFaster : ¬timing.time < best.time) :
    FirstFastest (history ++ [timing]) best := by
  obtain ⟨earlier, later, rfl, slower, laterNotFaster⟩ := first
  refine ⟨earlier, later ++ [timing], by simp, slower, ?_⟩
  intro other member
  rcases List.mem_append.mp member with old | new
  · exact laterNotFaster other old
  · cases List.mem_singleton.mp new
    exact notFaster

end FirstFastest

private theorem Beats.firstFastest {history : List Timing} {timing : Timing}
    (beats : Beats history timing) : FirstFastest (history ++ [timing]) timing := by
  refine ⟨history, [], rfl, beats.2, ?_⟩
  intro other member
  cases member

namespace Recorded

variable {history : List Timing} {record : Option Timing}

theorem eq_none_iff (recorded : Recorded history record) :
    record = none ↔ history = [] := by
  cases recorded with
  | nothing => simp
  | best first =>
      have nonempty : history ≠ [] := List.ne_nil_of_mem first.mem
      simp [nonempty]

theorem eq_some_iff (recorded : Recorded history record) {best : Timing} :
    record = some best ↔ FirstFastest history best := by
  cases recorded with
  | nothing =>
      constructor
      · intro equality
        cases equality
      · intro first
        cases first.mem
  | best first =>
      constructor
      · intro equality
        cases equality
        exact first
      · intro otherFirst
        rw [first.unique otherFirst]

theorem single (record : Option Timing) : Recorded record.toList record := by
  cases record with
  | none => exact .nothing
  | some timing => exact .best ⟨[], [], rfl, by simp, by simp⟩

/-- One more finite timing takes the record or leaves it as it is. -/
theorem concat {timing : Timing}
    (recorded : Recorded history record) (finite : FiniteSince history)
    (counted : timing.time.isFinite = true) :
    Recorded (history ++ [timing])
      (if Beats history timing then some timing else record) := by
  by_cases beats : Beats history timing
  · rw [if_pos beats]
    exact .best beats.firstFastest
  · rw [if_neg beats]
    cases recorded with
    | nothing => exact absurd ⟨counted, by simp⟩ beats
    | best first =>
        apply Recorded.best
        apply first.append_slower
        intro faster
        exact beats ⟨counted, (first.lt_all_iff finite).mpr faster⟩

end Recorded

end Timing

namespace Rows

/-- The finite timings of a signature, in the order of their calls. -/
def history (calls : Rows) (signature : String) : List Timing :=
  calls.filterMap fun call =>
    if call.1 = signature ∧ call.2.time.isFinite = true then some call.2 else none

/-- The signatures that a finite timing was given for. -/
def finiteSignatures (calls : Rows) : List String :=
  (calls.filter fun call => call.2.time.isFinite).map Prod.fst

variable {calls : Rows} {signature : String}

theorem history_append (calls others : Rows) (signature : String) :
    history (calls ++ others) signature =
      history calls signature ++ history others signature :=
  List.filterMap_append

private theorem history_singleton (key : String) (timing : Timing) :
    history [(key, timing)] signature =
      if key = signature ∧ timing.time.isFinite = true then [timing] else [] := by
  unfold history
  by_cases counted : key = signature ∧ timing.time.isFinite = true <;> simp [counted]

theorem mem_history_iff {timing : Timing} :
    timing ∈ history calls signature ↔
      (signature, timing) ∈ calls ∧ timing.time.isFinite = true := by
  unfold history
  simp only [List.mem_filterMap, Option.ite_none_right_eq_some, Option.some.injEq]
  constructor
  · rintro ⟨⟨key, timing⟩, member, ⟨rfl, finite⟩, rfl⟩
    exact ⟨member, finite⟩
  · rintro ⟨member, finite⟩
    exact ⟨(signature, timing), member, ⟨rfl, finite⟩, rfl⟩

theorem finiteSince_history : Timing.FiniteSince (history calls signature) := by
  intro timing member
  exact (mem_history_iff.mp (List.mem_of_mem_tail member)).2

theorem history_eq_nil_iff :
    history calls signature = [] ↔
      ∀ timing, (signature, timing) ∈ calls → timing.time.isFinite = false := by
  rw [List.eq_nil_iff_forall_not_mem]
  apply forall_congr'
  intro timing
  rw [mem_history_iff, not_and, Bool.not_eq_true]

private theorem mem_finiteSignatures_iff :
    signature ∈ finiteSignatures calls ↔ history calls signature ≠ [] := by
  unfold finiteSignatures
  rw [ne_eq, history_eq_nil_iff]
  simp

theorem mem_map_fst_iff {rows : Rows} :
    signature ∈ rows.map Prod.fst ↔ rows.find? signature ≠ none := by
  induction rows with
  | nil => simp [find?]
  | cons row rows induction =>
      obtain ⟨key, timing⟩ := row
      rw [find?_cons, List.map_cons, List.mem_cons, induction]
      by_cases same : signature = key <;> simp [same]

end Rows

namespace Table

open Timing Rows

theorem nodup_signatures (table : Table) : (table.rows.map Prod.fst).Nodup := by
  refine List.pairwise_map.mpr (table.ordered.imp ?_)
  intro first second less equal
  exact String.lt_irrefl _ (equal ▸ less)

/-! ## One call -/

variable {table : Table} {history : List Timing} {signature : String}

theorem isImprovement_iff {timing : Timing}
    (recorded : Recorded history (table.find? signature)) (finite : FiniteSince history) :
    table.isImprovement signature timing = true ↔ Beats history timing := by
  unfold isImprovement Beats
  rw [Bool.and_eq_true]
  apply and_congr_right
  intro _
  generalize table.find? signature = record at recorded
  cases recorded with
  | nothing => simp
  | best first =>
      rw [decide_eq_true_iff]
      exact (first.lt_all_iff finite).symm

theorem update_eq {timing : Timing}
    (recorded : Recorded history (table.find? signature)) (finite : FiniteSince history) :
    (table.update signature timing).2 = decide (Beats history timing) := by
  rw [Bool.eq_iff_iff, decide_eq_true_iff, ← isImprovement_iff recorded finite]
  unfold update
  cases table.isImprovement signature timing <;> simp

/-- A call extends the history of its own signature, unless its time is not finite. -/
theorem recorded_update
    (recorded : Recorded history (table.find? signature)) (finite : FiniteSince history)
    (key : String) (timing : Timing) :
    Recorded (history ++ Rows.history [(key, timing)] signature)
      ((table.update key timing).1.find? signature) := by
  by_cases counts : key = signature ∧ timing.time.isFinite = true
  · obtain ⟨rfl, counted⟩ := counts
    have answer : (table.update key timing).1.find? key =
        if Beats history timing then some timing else table.find? key := by
      rw [find?_update]
      simp only [true_and, isImprovement_iff recorded finite]
    rw [history_singleton, if_pos ⟨rfl, counted⟩, answer]
    exact recorded.concat finite counted
  · have kept : (table.update key timing).1.find? signature = table.find? signature := by
      rw [find?_update, if_neg]
      rintro ⟨rfl, improves⟩
      exact counts ⟨rfl, ((isImprovement_iff recorded finite).mp improves).1⟩
    rw [history_singleton, if_neg counts, List.append_nil, kept]
    exact recorded

/-! ## Many calls -/

theorem ofRows_concat (calls : Rows) (signature : String) (timing : Timing) :
    ofRows (calls ++ [(signature, timing)]) =
      ((ofRows calls).update signature timing).1 := by
  unfold ofRows updateAll
  rw [List.foldl_append]
  rfl

theorem recorded_ofRows (calls : Rows) (signature : String) :
    Recorded (calls.history signature) ((ofRows calls).find? signature) := by
  induction calls using List.reverseRecOn with
  | nil => exact .nothing
  | append_singleton calls call induction =>
      obtain ⟨key, timing⟩ := call
      rw [ofRows_concat, Rows.history_append]
      exact recorded_update induction finiteSince_history key timing

theorem size_ofRows (calls : Rows) :
    (ofRows calls).size = calls.finiteSignatures.dedup.length := by
  have sameSignatures :
      ((ofRows calls).rows.map Prod.fst).Perm calls.finiteSignatures.dedup := by
    apply (List.perm_ext_iff_of_nodup (nodup_signatures _) (List.nodup_dedup _)).mpr
    intro signature
    rw [List.mem_dedup, mem_finiteSignatures_iff, Rows.mem_map_fst_iff]
    exact not_congr (recorded_ofRows calls signature).eq_none_iff
  rw [← sameSignatures.length_eq, List.length_map]
  rfl

/-- The order of the calls has no influence on how fast the records are. -/
theorem rank_ofRows_perm {calls others : Rows} (reordered : calls.Perm others)
    (signature : String) :
    ((ofRows calls).find? signature).map (·.time.rank) =
      ((ofRows others).find? signature).map (·.time.rank) := by
  have recorded := recorded_ofRows calls signature
  have otherRecorded := recorded_ofRows others signature
  have histories : (calls.history signature).Perm (others.history signature) :=
    reordered.filterMap _
  have finite : ∀ timing, timing ∈ calls.history signature →
      timing.time.isFinite = true :=
    fun _ member => (mem_history_iff.mp member).2
  generalize calls.history signature = history at *
  generalize others.history signature = otherHistory at *
  generalize (ofRows calls).find? signature = record at *
  generalize (ofRows others).find? signature = otherRecord at *
  cases recorded with
  | nothing =>
      cases otherRecorded with
      | nothing => rfl
      | best otherFirst => exact absurd (histories.mem_iff.mpr otherFirst.mem) (by simp)
  | @best history best first =>
      cases otherRecorded with
      | nothing => exact absurd (histories.mem_iff.mp first.mem) (by simp)
      | @best otherHistory otherBest otherFirst =>
          have otherMember := histories.mem_iff.mpr otherFirst.mem
          have member := histories.mem_iff.mp first.mem
          have sameRank : best.time.rank = otherBest.time.rank :=
            Binary64.rank_eq_of_not_lt (finite best first.mem)
              (finite otherBest otherMember) (otherFirst.not_lt best member)
              (first.not_lt otherBest otherMember)
          simp [sameRank]

/-- After every sequence of calls a table holds, for each signature, the earliest of
the fastest finite timings that were offered for it, and each call tells whether its
timing was finite and faster than all of them before. -/
theorem ofRows_firstFastest (calls : Rows) :
    (∀ signature,
      ((ofRows calls).find? signature = none ↔
        ∀ timing, (signature, timing) ∈ calls → timing.time.isFinite = false) ∧
      ∀ best, (ofRows calls).find? signature = some best ↔
        FirstFastest (calls.history signature) best) ∧
    (∀ signature timing, (ofRows calls).update signature timing =
      (ofRows (calls ++ [(signature, timing)]),
        decide (Beats (calls.history signature) timing))) ∧
    (ofRows calls).size = calls.finiteSignatures.dedup.length ∧
    ∀ others, calls.Perm others → ∀ signature,
      ((ofRows calls).find? signature).map (·.time.rank) =
        ((ofRows others).find? signature).map (·.time.rank) := by
  refine ⟨?_, ?_, size_ofRows calls, ?_⟩
  · intro signature
    have recorded := recorded_ofRows calls signature
    constructor
    · exact recorded.eq_none_iff.trans history_eq_nil_iff
    · intro best
      exact recorded.eq_some_iff
  · intro signature timing
    apply Prod.ext
    · exact (ofRows_concat calls signature timing).symm
    · exact update_eq (recorded_ofRows calls signature) finiteSince_history
  · intro others reordered signature
    exact rank_ofRows_perm reordered signature

/-- The two zeros are equally fast, so the first of them stays. -/
example :
    let negativeZero : Binary64 := ⟨0x8000000000000000⟩
    (ofRows [("key", ⟨"first", negativeZero⟩), ("key", ⟨"second", .zero⟩)]).find? "key" =
      some ⟨"first", negativeZero⟩ := by
  decide

end Table

end KernelTuning
