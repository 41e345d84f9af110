import KernelTuning.Proofs.FastestRecords
import Mathlib.Data.Set.Card

/-!
# Merged tables

Merging sees only the winner of each signature, replaying sees every timing that was
offered.  Both lead to the same table: a record of the other table is the earliest of
the fastest in its own history, so it is in the joint history what it was in its own, as
long as no record of ours is as fast.
-/

namespace KernelTuning

namespace Timing

/-- The record that is kept when two tables meet: theirs if ours is missing or strictly
slower, otherwise ours. -/
def preferred : Option Timing → Option Timing → Option Timing
  | none, theirs => theirs
  | some ours, none => some ours
  | some ours, some theirs => if theirs.time < ours.time then some theirs else some ours

theorem preferred_eq (ours : Option Timing) (theirs : Timing) :
    preferred ours (some theirs) = some theirs ∨ preferred ours (some theirs) = ours := by
  cases ours with
  | none => exact .inl rfl
  | some ours =>
      rw [preferred]
      split
      · exact .inl rfl
      · exact .inr rfl

theorem FirstFastest.append_of_lt {history later : List Timing} {best challenger : Timing}
    (first : FirstFastest history best) (challengerFirst : FirstFastest later challenger)
    (finite : FiniteSince history) (faster : challenger.time < best.time) :
    FirstFastest (history ++ later) challenger := by
  obtain ⟨earlier, rest, rfl, slower, notFaster⟩ := challengerFirst
  refine ⟨history ++ earlier, rest, by simp, ?_, notFaster⟩
  intro timing member
  rcases List.mem_append.mp member with ours | theirs
  · exact (first.lt_all_iff finite).mpr faster timing ours
  · exact slower timing theirs

theorem FirstFastest.append_of_not_lt {history later : List Timing} {best challenger : Timing}
    (first : FirstFastest history best) (challengerFirst : FirstFastest later challenger)
    (finite : challenger.time.isFinite = true) (notFaster : ¬challenger.time < best.time) :
    FirstFastest (history ++ later) best := by
  obtain ⟨earlier, rest, rfl, slower, restNotFaster⟩ := first
  refine ⟨earlier, rest ++ later, by simp, slower, ?_⟩
  intro timing member faster
  rcases List.mem_append.mp member with ours | theirs
  · exact restNotFaster timing ours faster
  · -- Faster than ours means faster than the challenger, which was the fastest of theirs.
    rcases Binary64.lt_or_lt_of_lt faster finite with below | above
    · exact challengerFirst.not_lt timing theirs below
    · exact notFaster above

/-- Two histories one after the other leave the preferred one of their records. -/
theorem Recorded.append {history later : List Timing} {ours theirs : Option Timing}
    (recorded : Recorded history ours) (laterRecorded : Recorded later theirs)
    (finite : FiniteSince history)
    (laterFinite : ∀ timing, timing ∈ later → timing.time.isFinite = true) :
    Recorded (history ++ later) (preferred ours theirs) := by
  cases recorded with
  | nothing => exact laterRecorded
  | best first =>
      cases laterRecorded with
      | nothing =>
          rw [List.append_nil]
          exact .best first
      | best challengerFirst =>
          rw [preferred]
          split
          · rename_i faster
            exact .best (first.append_of_lt challengerFirst finite faster)
          · rename_i notFaster
            have challengerFinite := laterFinite _ challengerFirst.mem
            exact .best (first.append_of_not_lt challengerFirst challengerFinite notFaster)

theorem Recorded.unique {history : List Timing} {record other : Option Timing}
    (recorded : Recorded history record) (otherRecorded : Recorded history other) :
    record = other := by
  cases otherRecorded with
  | nothing => exact recorded.eq_none_iff.mpr rfl
  | best first => exact recorded.eq_some_iff.mpr first

end Timing

namespace Rows

private theorem find?_append (rows others : Rows) (signature : String) :
    find? (rows ++ others) signature = (find? rows signature).or (find? others signature) :=
  List.lookup_append

theorem find?_eq_none_iff {rows : Rows} {signature : String} :
    find? rows signature = none ↔ signature ∉ rows.map Prod.fst := by
  rw [mem_map_fst_iff, not_not]

/-- A row behind others of different signatures is the first one of its signature. -/
theorem find?_eq_none_of_nodup_concat {rows : Rows} {signature : String} {timing : Timing}
    (distinct : ((rows ++ [(signature, timing)]).map Prod.fst).Nodup) :
    (rows.map Prod.fst).Nodup ∧ find? rows signature = none := by
  rw [List.map_append, List.map_singleton, List.nodup_append] at distinct
  obtain ⟨distinctRows, _, disjoint⟩ := distinct
  refine ⟨distinctRows, find?_eq_none_iff.mpr ?_⟩
  intro member
  exact disjoint signature member signature (List.mem_singleton_self signature) rfl

/-- Where no signature stands twice, the rows are the records. -/
private theorem mem_iff_find? {rows : Rows} (distinct : (rows.map Prod.fst).Nodup)
    {signature : String} {timing : Timing} :
    (signature, timing) ∈ rows ↔ find? rows signature = some timing := by
  induction rows with
  | nil => simp [find?]
  | cons row rows induction =>
      obtain ⟨key, value⟩ := row
      obtain ⟨fresh, distinctRest⟩ := List.nodup_cons.mp distinct
      rw [find?_cons, List.mem_cons, induction distinctRest]
      by_cases same : signature = key
      · subst same
        have absent : find? rows signature = none := find?_eq_none_iff.mpr fresh
        simp [absent, eq_comm]
      · simp [same]

end Rows

namespace Table

open Timing

theorem mem_rows_iff {table : Table} {signature : String} {timing : Timing} :
    (signature, timing) ∈ table.rows ↔ table.find? signature = some timing :=
  Rows.mem_iff_find? table.nodup_signatures

/-- Tables that give the same answers are equal. -/
theorem eq_of_find?_eq {table other : Table}
    (same : ∀ signature, table.find? signature = other.find? signature) : table = other := by
  have distinct := table.nodup_signatures.of_map Prod.fst
  have otherDistinct := other.nodup_signatures.of_map Prod.fst
  have permuted : table.rows.Perm other.rows := by
    apply (List.perm_ext_iff_of_nodup distinct otherDistinct).mpr
    rintro ⟨signature, timing⟩
    rw [mem_rows_iff, mem_rows_iff, same]
  have rows : table.rows = other.rows := by
    apply permuted.eq_of_pairwise _ table.ordered other.ordered
    intro first second _ _ below above
    exact absurd above (String.lt_asymm below)
  cases table
  cases other
  cases rows
  rfl

/-! ## Offering rows of different signatures -/

theorem isImprovement_congr {table other : Table} {signature : String} (timing : Timing)
    (same : table.find? signature = other.find? signature) :
    table.isImprovement signature timing = other.isImprovement signature timing := by
  unfold isImprovement
  rw [same]

theorem updateAll_concat (table : Table) (rows : Rows) (signature : String) (timing : Timing) :
    table.updateAll (rows ++ [(signature, timing)]) =
      (((table.updateAll rows).1.update signature timing).1,
        (table.updateAll rows).2
          + if ((table.updateAll rows).1.update signature timing).2 then 1 else 0) := by
  unfold updateAll
  rw [List.foldl_append]
  simp only [List.foldl_cons, List.foldl_nil]
  split <;> rfl

/-- What one signature's row does to its record; it meets the record of the table at the
start, because no other row has its signature. -/
theorem find?_updateAll (table : Table) {rows : Rows}
    (distinct : (rows.map Prod.fst).Nodup) (signature : String) :
    (table.updateAll rows).1.find? signature =
      match rows.find? signature with
      | none => table.find? signature
      | some timing =>
          if table.isImprovement signature timing = true then some timing
          else table.find? signature := by
  induction rows using List.reverseRecOn with
  | nil => rfl
  | append_singleton rows row induction =>
      obtain ⟨key, timing⟩ := row
      obtain ⟨distinctRows, fresh⟩ := Rows.find?_eq_none_of_nodup_concat distinct
      have before := induction distinctRows
      rw [updateAll_concat, find?_update, Rows.find?_append, Rows.find?_cons]
      by_cases same : signature = key
      · subst same
        rw [fresh] at before ⊢
        simp only at before
        simp [before, isImprovement_congr timing before]
      · simp [same, before, Rows.find?]

theorem count_updateAll (table : Table) {rows : Rows}
    (distinct : (rows.map Prod.fst).Nodup) :
    (table.updateAll rows).2 =
      rows.countP fun row => table.isImprovement row.1 row.2 := by
  induction rows using List.reverseRecOn with
  | nil => rfl
  | append_singleton rows row induction =>
      obtain ⟨key, timing⟩ := row
      obtain ⟨distinctRows, fresh⟩ := Rows.find?_eq_none_of_nodup_concat distinct
      have before : (table.updateAll rows).1.find? key = table.find? key := by
        rw [find?_updateAll table distinctRows, fresh]
      have improves : ((table.updateAll rows).1.update key timing).2 =
          table.isImprovement key timing := by
        rw [← isImprovement_congr timing before]
        unfold update
        split <;> simp_all
      rw [updateAll_concat, induction distinctRows, List.countP_append,
        List.countP_singleton, improves]

/-! ## Merging -/

/-- Every recorded time is finite. -/
def AllFinite (table : Table) : Prop :=
  ∀ signature timing, table.find? signature = some timing → timing.time.isFinite = true

theorem allFinite_ofRows (calls : Rows) : (ofRows calls).AllFinite := by
  intro signature timing found
  have first := (recorded_ofRows calls signature).eq_some_iff.mp found
  exact (Rows.mem_history_iff.mp first.mem).2

variable {table other : Table}

theorem isImprovement_iff_preferred {signature : String} {timing : Timing}
    (finite : timing.time.isFinite = true) :
    table.isImprovement signature timing = true ↔
      preferred (table.find? signature) (some timing) ≠ table.find? signature := by
  unfold isImprovement
  cases table.find? signature with
  | none => simp [preferred, finite]
  | some current =>
      by_cases faster : timing.time < current.time
      · have different : timing ≠ current := by
          rintro rfl
          exact Binary64.lt_irrefl _ faster
        simp [preferred, finite, faster, different]
      · simp [preferred, finite, faster]

theorem find?_merge (finite : other.AllFinite) (signature : String) :
    (table.merge other).1.find? signature =
      preferred (table.find? signature) (other.find? signature) := by
  unfold merge
  rw [find?_updateAll table other.nodup_signatures]
  change (match other.find? signature with | none => _ | some timing => _) = _
  cases found : other.find? signature with
  | none => cases table.find? signature <;> rfl
  | some timing =>
      simp only [isImprovement_iff_preferred (finite signature timing found), ite_not]
      split
      · rename_i kept
        exact kept.symm
      · rename_i replaced
        exact ((preferred_eq _ timing).resolve_right replaced).symm

/-- The count of a merge is that of the signatures with a new record. -/
theorem count_merge (finite : other.AllFinite) :
    ((table.merge other).2 : ℕ∞) =
      {signature | (table.merge other).1.find? signature ≠ table.find? signature}.encard := by
  let improving := other.rows.filter fun row => table.isImprovement row.1 row.2
  have distinct : (improving.map Prod.fst).Nodup :=
    other.nodup_signatures.sublist (List.filter_sublist.map Prod.fst)
  have changed : {signature | (table.merge other).1.find? signature ≠ table.find? signature} =
      ((improving.map Prod.fst).toFinset : Set String) := by
    ext signature
    rw [Set.mem_ofPred_eq, find?_merge finite, List.coe_toFinset, Set.mem_ofPred_eq, List.mem_map]
    constructor
    · intro different
      cases found : other.find? signature with
      | none =>
          rw [found] at different
          cases record : table.find? signature <;> simp [record, preferred] at different
      | some timing =>
          rw [found] at different
          have improves := (isImprovement_iff_preferred (finite _ _ found)).mpr different
          exact ⟨(signature, timing),
            List.mem_filter.mpr ⟨mem_rows_iff.mpr found, improves⟩, rfl⟩
    · rintro ⟨⟨key, timing⟩, member, rfl⟩
      obtain ⟨row, improves⟩ := List.mem_filter.mp member
      have found := mem_rows_iff.mp row
      rw [found]
      exact (isImprovement_iff_preferred (finite _ _ found)).mp improves
  rw [changed, Set.encard_coe_eq_coe_finsetCard, List.toFinset_card_of_nodup distinct,
    List.length_map, ← List.countP_eq_length_filter]
  exact congrArg _ (count_updateAll table other.nodup_signatures)

/-- A table that has nothing faster changes nothing. -/
theorem merge_eq_self
    (settled : ∀ signature timing, other.find? signature = some timing →
      table.isImprovement signature timing = false) :
    table.merge other = (table, 0) := by
  apply Prod.ext
  · apply eq_of_find?_eq
    intro signature
    unfold merge
    rw [find?_updateAll table other.nodup_signatures]
    change (match other.find? signature with | none => _ | some timing => _) = _
    cases found : other.find? signature with
    | none => rfl
    | some timing => simp [settled signature timing found]
  · unfold merge
    rw [count_updateAll table other.nodup_signatures]
    apply List.countP_eq_zero.mpr
    rintro ⟨signature, timing⟩ member
    simp [settled signature timing (mem_rows_iff.mp member)]

theorem merge_self (table : Table) : table.merge table = (table, 0) := by
  apply merge_eq_self
  intro signature timing found
  unfold isImprovement
  simp [found, Binary64.lt_irrefl]

theorem merge_again (finite : other.AllFinite) :
    (table.merge other).1.merge other = ((table.merge other).1, 0) := by
  apply merge_eq_self
  intro signature timing found
  rw [← Bool.not_eq_true, isImprovement_iff_preferred (finite _ _ found), not_not,
    find?_merge finite, found]
  cases table.find? signature with
  | none => simp [preferred, Binary64.lt_irrefl]
  | some current =>
      by_cases faster : timing.time < current.time <;>
        simp [preferred, faster, Binary64.lt_irrefl]

theorem merge_ofRows_eq (calls others : Rows) :
    ((ofRows calls).merge (ofRows others)).1 = ofRows (calls ++ others) := by
  apply eq_of_find?_eq
  intro signature
  rw [find?_merge (allFinite_ofRows others)]
  have joint : Recorded (calls.history signature ++ others.history signature)
      (preferred ((ofRows calls).find? signature) ((ofRows others).find? signature)) :=
    (recorded_ofRows calls signature).append (recorded_ofRows others signature)
      Rows.finiteSince_history fun _ member => (Rows.mem_history_iff.mp member).2
  have replayed := recorded_ofRows (calls ++ others) signature
  rw [Rows.history_append] at replayed
  exact joint.unique replayed

/-- Merging the tables of two histories is replaying the second history behind the first.
Each record is the preferred one of the two, the count is that of the signatures whose
record changed, what has been merged once has nothing more to give, and the order in which
three tables are merged does not matter as long as their sequence is kept. -/
theorem merge_replays (calls others : Rows) :
    let ours := ofRows calls
    let theirs := ofRows others
    let merged := (ours.merge theirs).1
    merged = ofRows (calls ++ others) ∧
      (∀ signature, merged.find? signature =
        preferred (ours.find? signature) (theirs.find? signature)) ∧
      ((ours.merge theirs).2 : ℕ∞) =
        {signature | merged.find? signature ≠ ours.find? signature}.encard ∧
      merged.merge theirs = (merged, 0) ∧
      (∀ same : Table, same.rows = ours.rows → ours.merge same = (ours, 0)) ∧
      ∀ more : Rows, (merged.merge (ofRows more)).1 =
        (ours.merge (theirs.merge (ofRows more)).1).1 := by
  intro ours theirs merged
  have finite : theirs.AllFinite := allFinite_ofRows others
  refine ⟨merge_ofRows_eq calls others, find?_merge finite, count_merge finite,
    merge_again finite, ?_, ?_⟩
  · rintro ⟨rows, ordered⟩ sameRows
    cases sameRows
    exact merge_self ours
  · intro more
    calc (merged.merge (ofRows more)).1
        = ((ofRows (calls ++ others)).merge (ofRows more)).1 := by rw [← merge_ofRows_eq]
      _ = ofRows (calls ++ (others ++ more)) := by rw [merge_ofRows_eq, List.append_assoc]
      _ = (ours.merge (ofRows (others ++ more))).1 := (merge_ofRows_eq calls _).symm
      _ = (ours.merge (theirs.merge (ofRows more)).1).1 := by rw [← merge_ofRows_eq others]

end Table

end KernelTuning
