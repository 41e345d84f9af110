import KernelTuning.Config.Apply
import KernelTuning.Signature

/-!
# Tuning tables

A table records, for each signature, the configuration that was fastest so far and
its time.  Rows stand in the order of their signatures and no signature stands
twice, so two tables with the same records are equal.

Main statements: `find?_insert` and `ordered_place`.
-/

namespace KernelTuning

/-- A configuration and the time that it took, in milliseconds. -/
structure Timing where
  config : String
  time : Binary64
  deriving DecidableEq, Inhabited, Repr

/-- A list of rows. -/
abbrev Rows := List (String × Timing)

namespace Rows

/-- Signatures increase from row to row. -/
def Ordered (rows : Rows) : Prop :=
  rows.Pairwise fun first second => first.1 < second.1

/-- The rows with one more timing, which replaces the one of its signature. -/
def place (signature : String) (timing : Timing) : Rows → Rows
  | [] => [(signature, timing)]
  | row :: rows =>
      if signature < row.1 then (signature, timing) :: row :: rows
      else if signature = row.1 then (signature, timing) :: rows
      else row :: place signature timing rows

/-- The timing of a signature. -/
def find? (rows : Rows) (signature : String) : Option Timing :=
  rows.lookup signature

theorem mem_place
    {signature : String} {timing : Timing} {rows : Rows} {row : String × Timing}
    (member : row ∈ rows.place signature timing) :
    row = (signature, timing) ∨ row ∈ rows := by
  induction rows with
  | nil => simpa [place] using member
  | cons head tail induction =>
      unfold place at member
      split at member
      · simpa using member
      · split at member
        · rcases List.mem_cons.mp member with new | old
          · exact .inl new
          · exact .inr (List.mem_cons_of_mem _ old)
        · rcases List.mem_cons.mp member with first | later
          · exact .inr (first ▸ List.mem_cons_self)
          · rcases induction later with new | old
            · exact .inl new
            · exact .inr (List.mem_cons_of_mem _ old)

theorem lt_of_not_lt_of_ne
    {first second : String} (notLess : ¬first < second) (distinct : first ≠ second) :
    second < first := by
  rcases Decidable.em (second < first) with less | notGreater
  · exact less
  · exact absurd
      (String.le_antisymm (String.not_lt.mp notGreater) (String.not_lt.mp notLess))
      distinct

theorem ordered_place
    {rows : Rows} (signature : String) (timing : Timing) (ordered : rows.Ordered) :
    (rows.place signature timing).Ordered := by
  induction rows with
  | nil => simp [place, Ordered]
  | cons head tail induction =>
      have headBelow := (List.pairwise_cons.mp ordered).1
      have tailOrdered := (List.pairwise_cons.mp ordered).2
      unfold place
      split
      · rename_i below
        refine List.pairwise_cons.mpr ⟨?_, ordered⟩
        intro row member
        rcases List.mem_cons.mp member with rfl | later
        · exact below
        · exact String.lt_trans below (headBelow row later)
      · rename_i notBelow
        split
        · rename_i equal
          refine List.pairwise_cons.mpr ⟨?_, tailOrdered⟩
          intro row member
          exact equal ▸ headBelow row member
        · rename_i distinct
          refine List.pairwise_cons.mpr ⟨?_, induction tailOrdered⟩
          intro row member
          rcases mem_place member with rfl | old
          · exact lt_of_not_lt_of_ne notBelow distinct
          · exact headBelow row old

theorem find?_cons (key other : String) (timing : Timing) (rows : Rows) :
    Rows.find? ((key, timing) :: rows) other =
      if other = key then some timing else Rows.find? rows other := by
  unfold find?
  rw [List.lookup_cons]
  by_cases equal : other = key
  · simp [equal]
  · have distinct : (other == key) = false := beq_eq_false_iff_ne.mpr equal
    simp [equal, distinct]

theorem find?_place
    (rows : Rows) (signature other : String) (timing : Timing) :
    (rows.place signature timing).find? other =
      if other = signature then some timing else rows.find? other := by
  induction rows with
  | nil => exact find?_cons signature other timing []
  | cons head tail induction =>
      obtain ⟨key, value⟩ := head
      unfold place
      split
      · simp only [find?_cons]
      · split
        · rename_i same
          have sameKey : signature = key := same
          subst sameKey
          by_cases equal : other = signature <;> simp [find?_cons, equal]
        · rename_i distinct
          have distinctKey : signature ≠ key := distinct
          by_cases atKey : other = key
          · subst atKey
            simp [find?_cons, Ne.symm distinctKey]
          · simp [find?_cons, atKey, induction]

end Rows

/-- The fastest known timing of each signature. -/
structure Table where
  rows : Rows
  ordered : rows.Ordered := by simp [Rows.Ordered]
  deriving DecidableEq

namespace Table

/-- The table without records. -/
def empty : Table := { rows := [] }

instance : Inhabited Table := ⟨empty⟩

/-- The number of signatures. -/
def size (table : Table) : Nat :=
  table.rows.length

/-- The record of a signature. -/
def find? (table : Table) (signature : String) : Option Timing :=
  table.rows.find? signature

/-- The table with a record replaced or added. -/
def insert (table : Table) (signature : String) (timing : Timing) : Table :=
  { rows := table.rows.place signature timing
    ordered := Rows.ordered_place signature timing table.ordered }

theorem find?_insert (table : Table) (signature other : String) (timing : Timing) :
    (table.insert signature timing).find? other =
      if other = signature then some timing else table.find? other :=
  Rows.find?_place table.rows signature other timing

/-- Whether a timing is to be recorded: its time is finite and, if there is a
record already, strictly less than the recorded one. -/
def isImprovement (table : Table) (signature : String) (timing : Timing) : Bool :=
  timing.time.isFinite &&
    match table.find? signature with
    | none => true
    | some current => decide (timing.time < current.time)

/-- Records a timing if it is an improvement, and tells whether it was. -/
def update (table : Table) (signature : String) (timing : Timing) : Table × Bool :=
  if table.isImprovement signature timing then (table.insert signature timing, true)
  else (table, false)

/-- Records the timings of a list one after the other, and counts the
improvements. -/
def updateAll (table : Table) (rows : Rows) : Table × Nat :=
  rows.foldl
    (fun (table, count) (signature, timing) =>
      let (table, improved) := table.update signature timing
      (table, if improved then count + 1 else count))
    (table, 0)

/-- The table that the timings of a list lead to. -/
def ofRows (rows : Rows) : Table :=
  (empty.updateAll rows).1

/-- Takes over what another table knows better, and counts the changes. -/
def merge (table other : Table) : Table × Nat :=
  table.updateAll other.rows

/-- The configuration recorded for a problem; a problem without a signature has
none. -/
def lookup? (table : Table) (problem : Problem) : Option String :=
  match problem.signature with
  | .ok signature => (table.find? signature).map Timing.config
  | .error _ => none

/-- Applies the configuration recorded for a problem.  Without a record, or with
one that cannot be applied any more, the problem is left alone. -/
def applyBest (table : Table) (problem : Problem) : Checked (Bool × Problem) :=
  match table.lookup? problem with
  | none => .ok (false, problem)
  | some config =>
      if problem.canFuseText config then do
        match ← (problem.applyText config).run with
        | .ok configured => return (true, configured)
        | .error _ => return (false, problem)
      else .ok (false, problem)

end Table

end KernelTuning
