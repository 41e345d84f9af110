import KernelTuning.Proofs.AcceptedKnobs
import KernelTuning.Proofs.MergedTables
import KernelTuning.Proofs.TuningReport
import Mathlib.Data.List.Flatten

/-!
# Wider levels

Each knob value of the full grid is one of the exhaustive grid, in the same order, so the
candidates of the one are among those of the other.  The curated list is not part of the
full grid: its largest tile uses a wave that only the exhaustive grid has.  Wherever that
tile is admitted so is one of the full grid with as many waves and smaller tiles, which the
curated list does not have.

A sweep over more candidates leaves a record that is at least as fast.
-/

namespace KernelTuning

namespace Space

/-! ## Grids -/

/-- Fewer items with smaller branches make a smaller enumeration. -/
private theorem sublist_flatMap {α β : Type} {items others : List α}
    {branch other : α → List β} (fewer : items.Sublist others)
    (smaller : ∀ item, (branch item).Sublist (other item)) :
    (items.flatMap branch).Sublist (others.flatMap other) :=
  (fewer.flatMap branch).trans (.flatMap_right others fun item _ => smaller item)

namespace MatrixGrid

/-- Every knob takes its values, in order, among those of the other grid. -/
structure Within (narrow wide : MatrixGrid) : Prop where
  block : narrow.block.Sublist wide.block
  kPerBlock : narrow.kPerBlock.Sublist wide.kPerBlock
  wave : narrow.wave.Sublist wide.wave
  kPack : narrow.kPack.Sublist wide.kPack
  forceUnroll : narrow.forceUnroll.Sublist wide.forceUnroll
  bCopyMore : narrow.bCopyMore.Sublist wide.bCopyMore

private theorem full_within_exhaustive : full.Within exhaustive := by
  constructor <;> decide

theorem Within.sublist_points {narrow wide : MatrixGrid} (within : narrow.Within wide)
    (splitFactors : List UInt32) :
    (narrow.points splitFactors).Sublist (wide.points splitFactors) := by
  unfold points
  apply sublist_flatMap within.block
  intro mPerBlock
  apply sublist_flatMap within.block
  intro nPerBlock
  apply sublist_flatMap within.kPerBlock
  intro kPerBlock
  apply sublist_flatMap within.wave
  intro mPerWave
  apply sublist_flatMap within.wave
  intro nPerWave
  apply sublist_flatMap within.kPack
  intro kPack
  apply sublist_flatMap (.refl splitFactors)
  intro splitK
  apply sublist_flatMap within.forceUnroll
  intro forceUnroll
  exact within.bCopyMore.map _

end MatrixGrid

namespace ScalarGrid

/-- Every knob takes its values, in order, among those of the other grid. -/
structure Within (narrow wide : ScalarGrid) : Prop where
  blockSize : narrow.blockSize.Sublist wide.blockSize
  block : narrow.block.Sublist wide.block
  kPerBlock : narrow.kPerBlock.Sublist wide.kPerBlock
  thread : narrow.thread.Sublist wide.thread

private theorem full_within_exhaustive : full.Within exhaustive := by
  constructor <;> decide

theorem quickScalar_subset : quickScalar ⊆ full.points := by
  intro knobs member
  apply mem_points.mpr
  revert knobs
  change ∀ knobs, knobs ∈ quickScalar → _
  decide

theorem Within.sublist_points {narrow wide : ScalarGrid} (within : narrow.Within wide) :
    narrow.points.Sublist wide.points := by
  unfold points
  apply sublist_flatMap within.blockSize
  intro blockSize
  apply sublist_flatMap within.block
  intro mPerBlock
  apply sublist_flatMap within.block
  intro nPerBlock
  apply sublist_flatMap within.kPerBlock
  intro kPerBlock
  apply sublist_flatMap within.thread
  intro mPerThread
  exact within.thread.map _

end ScalarGrid

/-! ## Levels -/

private theorem factors_full_eq (problem : Problem) :
    SplitK.factors problem .full = SplitK.factors problem .exhaustive :=
  rfl

theorem one_mem_factors (problem : Problem) (level : Level) :
    1 ∈ SplitK.factors problem level := by
  unfold SplitK.factors
  simp only
  split
  · exact List.mem_singleton_self 1
  · split
    · exact List.mem_singleton_self 1
    · split <;> decide

theorem sublist_points (problem : Problem) :
    (points problem .full).Sublist (points problem .exhaustive) := by
  unfold points
  cases problem.usesMatrix with
  | true =>
      apply List.Sublist.map
      rw [factors_full_eq]
      exact MatrixGrid.full_within_exhaustive.sublist_points _
  | false =>
      apply List.Sublist.map
      exact ScalarGrid.full_within_exhaustive.sublist_points

/-- Every curated setting is a point of the exhaustive grid, if only for the factor of
unsplit reductions. -/
private theorem quickMatrix_subset {splitFactors : List UInt32} (unsplit : 1 ∈ splitFactors) :
    quickMatrix ⊆ MatrixGrid.exhaustive.points splitFactors := by
  intro knobs member
  apply MatrixGrid.mem_points.mpr
  rw [splitK_of_mem_quickMatrix knobs member]
  simp only [unsplit, true_and]
  revert knobs
  change ∀ knobs, knobs ∈ quickMatrix → _
  decide

theorem points_quick_subset (problem : Problem) :
    points problem .quick ⊆ points problem .exhaustive := by
  unfold points
  cases problem.usesMatrix with
  | true =>
      apply List.map_subset
      exact quickMatrix_subset (one_mem_factors problem .exhaustive)
  | false =>
      apply List.map_subset
      exact List.Subset.trans ScalarGrid.quickScalar_subset
        ScalarGrid.full_within_exhaustive.sublist_points.subset

/-! ## The size of the curated list -/

/-- The largest tile of the curated list. -/
def largestCurated : MatrixKnobs := curatedMatrix 256 128 2 128 64 8

/-- A tile of the full grid with as many waves as the largest curated one. -/
def halvedCurated : MatrixKnobs := curatedMatrix 128 128 2 64 64 8

private theorem quickMatrix_eq : quickMatrix = largestCurated :: quickMatrix.tail :=
  rfl

/-- Settings with as many waves that are smaller in the block tile and alike in K. -/
structure Shrinks (smaller larger : MatrixKnobs) : Prop where
  rows : smaller.mPerBlock.toNat ≤ larger.mPerBlock.toNat
  columns : smaller.nPerBlock.toNat ≤ larger.nPerBlock.toNat
  depth : (Config.matrix smaller).kElements = (Config.matrix larger).kElements
  splitK : smaller.splitK = larger.splitK
  waveTile : smaller.mPerWave ≠ 0 ∧ smaller.nPerWave ≠ 0
  even : smaller.mPerBlock % smaller.mPerWave = 0 ∧ smaller.nPerBlock % smaller.nPerWave = 0
  waves : smaller.waves = larger.waves

private theorem halved_shrinks_largest : Shrinks halvedCurated largestCurated := by
  constructor <;> decide

private theorem Shrinks.ldsFootprint_le {smaller larger : MatrixKnobs}
    (shrinks : Shrinks smaller larger)
    (elementBytes : Nat) :
    (Config.matrix smaller).ldsFootprint elementBytes
      ≤ (Config.matrix larger).ldsFootprint elementBytes := by
  have rows : (Config.matrix smaller).mPerBlock.toNat ≤ (Config.matrix larger).mPerBlock.toNat :=
    shrinks.rows
  have columns :
      (Config.matrix smaller).nPerBlock.toNat ≤ (Config.matrix larger).nPerBlock.toNat :=
    shrinks.columns
  have monotone : ∀ {left left' : Nat} (right : Nat), left ≤ left' →
      Word.saturatingProduct left right ≤ Word.saturatingProduct left' right :=
    fun right less => min_le_min_right _ (Nat.mul_le_mul_right right less)
  unfold Config.ldsFootprint
  rw [shrinks.depth]
  exact monotone _ (monotone _ (Nat.add_le_add rows columns))

theorem Shrinks.admits {problem : Problem} {smaller larger : MatrixKnobs}
    (shrinks : Shrinks smaller larger) (admitted : admits problem (.matrix larger) = true) :
    admits problem (.matrix smaller) = true := by
  rw [admits_iff, Config.passes_checkStructure_iff, fitsShape_iff] at admitted ⊢
  obtain ⟨⟨threads, tiled, few, fits⟩, rows, columns, depth⟩ := admitted
  obtain ⟨_, _, product⟩ := Config.passes_threads_matrix_iff.mp tiled
  refine ⟨⟨threads, ?_, few, (shrinks.ldsFootprint_le _).trans fits⟩, ?_⟩
  · rw [← shrinks.waves] at product
    exact Config.passes_threads_matrix_iff.mpr ⟨shrinks.waveTile, shrinks.even, product⟩
  · have sameDepth : (Config.matrix smaller).kElements * smaller.splitK.toNat =
        (Config.matrix larger).kElements * larger.splitK.toNat := by
      rw [shrinks.depth, shrinks.splitK]
    exact ⟨shrinks.rows.trans rows, shrinks.columns.trans columns, sameDepth.trans_le depth⟩

private theorem halved_quickMatrix_subset {splitFactors : List UInt32}
    (unsplit : 1 ∈ splitFactors) :
    halvedCurated :: quickMatrix.tail ⊆ MatrixGrid.full.points splitFactors := by
  intro knobs member
  have split : knobs.splitK = 1 := by
    revert knobs
    decide
  apply MatrixGrid.mem_points.mpr
  rw [split]
  simp only [unsplit, true_and]
  revert knobs
  change ∀ knobs, knobs ∈ halvedCurated :: quickMatrix.tail → _
  decide

/-- A test that the halved tile passes whenever the largest one does is passed by at least
as many points of the full grid as curated settings. -/
private theorem length_filter_quickMatrix_le {test : MatrixKnobs → Bool}
    {splitFactors : List UInt32}
    (unsplit : 1 ∈ splitFactors)
    (halves : test largestCurated = true → test halvedCurated = true) :
    (quickMatrix.filter test).length
      ≤ ((MatrixGrid.full.points splitFactors).filter test).length := by
  have distinct : (halvedCurated :: quickMatrix.tail).Nodup := by
    decide
  have exchanged : (quickMatrix.filter test).length
      ≤ ((halvedCurated :: quickMatrix.tail).filter test).length := by
    rw [quickMatrix_eq, ← List.countP_eq_length_filter, ← List.countP_eq_length_filter,
      List.countP_cons, List.countP_cons]
    cases largest : test largestCurated with
    | false => simp
    | true => simp [halves largest]
  have included : (halvedCurated :: quickMatrix.tail).filter test
      ⊆ (MatrixGrid.full.points splitFactors).filter test :=
    List.filter_subset test (halved_quickMatrix_subset unsplit)
  exact exchanged.trans ((distinct.filter test).length_le_of_subset included)

theorem length_filter_points_quick_le (problem : Problem) :
    ((points problem .quick).filter (admits problem)).length
      ≤ ((points problem .full).filter (admits problem)).length := by
  unfold points
  cases problem.usesMatrix with
  | true =>
      simp only [if_true, List.filter_map, List.length_map]
      apply length_filter_quickMatrix_le (one_mem_factors problem .full)
      exact halved_shrinks_largest.admits
  | false =>
      simp only [Bool.false_eq_true, if_false, List.filter_map, List.length_map]
      have distinct : quickScalar.Nodup := nodup_scalarPoints .quick
      exact (distinct.filter _).length_le_of_subset
        (List.filter_subset _ ScalarGrid.quickScalar_subset)

/-! ## Candidates -/

theorem sublist_candidates (problem : Problem) :
    (((points problem .full).filter (admits problem)).map (candidate problem)).Sublist
      (((points problem .exhaustive).filter (admits problem)).map (candidate problem)) :=
  ((sublist_points problem).filter (admits problem)).map (candidate problem)

theorem valid_subset {space other : Space} (fewer : space.candidates ⊆ other.candidates) :
    space.valid ⊆ other.valid :=
  List.map_subset _ (List.filter_subset _ fewer)

/-- The spaces of the three levels. -/
theorem exists_build_widening {problem : Problem} (validated : problem.validate = .ok ()) :
    ∃ quick full exhaustive,
      build problem .quick = .ok quick ∧ build problem .full = .ok full ∧
        build problem .exhaustive = .ok exhaustive ∧
        full.candidates.Sublist exhaustive.candidates ∧
        quick.candidates ⊆ exhaustive.candidates ∧
        quick.size ≤ full.size ∧ full.size ≤ exhaustive.size := by
  refine ⟨_, _, _, build_eq_ok_iff.mpr ⟨validated, rfl⟩, build_eq_ok_iff.mpr ⟨validated, rfl⟩,
    build_eq_ok_iff.mpr ⟨validated, rfl⟩, sublist_candidates problem, ?_, ?_, ?_⟩
  · exact List.map_subset _ (List.filter_subset _ (points_quick_subset problem))
  · simpa only [size, List.length_map] using length_filter_points_quick_le problem
  · exact (sublist_candidates problem).length_le

end Space

namespace Timing

/-- The time is finite, and at most the finite time of another timing. -/
structure NoSlower (timing other : Timing) : Prop where
  finite : timing.time.isFinite = true
  otherFinite : other.time.isFinite = true
  atMost : timing.time.rank ≤ other.time.rank

/-- A longer history has a record that is at least as fast. -/
theorem FirstFastest.widen {history wider : List Timing} {best : Timing}
    {record : Option Timing} (first : FirstFastest history best)
    (recorded : Recorded wider record) (fewer : history ⊆ wider)
    (finite : ∀ timing, timing ∈ wider → timing.time.isFinite = true) :
    ∃ better, record = some better ∧ better.NoSlower best := by
  have competes : best ∈ wider := fewer first.mem
  cases recorded with
  | nothing => cases competes
  | @best _ better betterFirst =>
      have betterFinite := finite better betterFirst.mem
      have bestFinite := finite best competes
      refine ⟨better, rfl, betterFinite, bestFinite, ?_⟩
      have notFaster := betterFirst.not_lt best competes
      rw [Binary64.lt_iff_rank_lt bestFinite betterFinite] at notFaster
      exact Int.not_lt.mp notFaster

end Timing

namespace Tuner

open Timing

/-- The tuner succeeds on a problem and leaves it with a record. -/
def Finds (options : TunerOptions) (benchmark : Benchmark) (problem : Problem) (table : Table)
    (timing : Timing) : Prop :=
  ∃ outcome next, call options benchmark problem table = .ok (.ok outcome, next) ∧
    outcome.best = some timing

variable {options narrow wide : TunerOptions} {benchmark : Benchmark} {problem : Problem}
  {key : String} {table : Table} {timing : Timing}

theorem finds_iff {space : Space} (signed : problem.signature = .ok key)
    (built : Space.build problem options.level = .ok space) :
    Finds options benchmark problem table timing ↔
      candidates options problem space ≠ [] ∧
        (swept options benchmark problem key table
          (candidates options problem space)).table.find? key = some timing := by
  unfold Finds
  by_cases nothing : candidates options problem space = []
  · rw [call_of_nil signed built nothing]
    simp [nothing]
  · rw [call_of_ne_nil signed built nothing]
    constructor
    · rintro ⟨outcome, next, called, best⟩
      cases called
      exact ⟨nothing, best⟩
    · rintro ⟨_, best⟩
      exact ⟨_, _, rfl, best⟩

private theorem offered_subset (sameRuns : narrow.runs = wide.runs) (record : Option Timing)
    {configs others : List Config} (fewer : configs ⊆ others) :
    offered narrow benchmark problem record configs
      ⊆ offered wide benchmark problem record others := by
  have sameTrial : trial narrow benchmark problem = trial wide benchmark problem := by
    funext config
    unfold trial meanTime
    rw [sameRuns]
  unfold offered finiteTrials
  rw [sameTrial]
  have tried := List.filter_subset (·.time.isFinite)
    (List.filterMap_subset (trial wide benchmark problem) fewer)
  exact List.append_subset.mpr ⟨List.subset_append_left _ _, 
    List.Subset.trans tried (List.subset_append_right _ _)⟩

private theorem finite_of_mem_offered (finite : table.AllFinite) {configs : List Config} :
    ∀ timing, timing ∈ offered options benchmark problem (table.find? key) configs →
      timing.time.isFinite = true := by
  intro timing member
  rcases List.mem_append.mp member with recorded | tried
  · exact finite key timing (Option.mem_toList.mp recorded)
  · exact (List.mem_filter.mp tried).2

/-- With more candidates, timed in the same way, the tuner finds a record too, and it is
at least as fast. -/
theorem Finds.widen {narrowSpace wideSpace : Space}
    (finds : Finds narrow benchmark problem table timing)
    (signed : problem.signature = .ok key)
    (narrowBuilt : Space.build problem narrow.level = .ok narrowSpace)
    (wideBuilt : Space.build problem wide.level = .ok wideSpace)
    (sameRuns : narrow.runs = wide.runs) (finite : table.AllFinite)
    (fewer : candidates narrow problem narrowSpace ⊆ candidates wide problem wideSpace) :
    ∃ better, Finds wide benchmark problem table better ∧ better.NoSlower timing := by
  obtain ⟨something, found⟩ := (finds_iff signed narrowBuilt).mp finds
  have more : candidates wide problem wideSpace ≠ [] :=
    fun nothing => something (List.subset_nil.mp (nothing ▸ fewer))
  have narrowSwept : Sweep.Truthful narrow benchmark problem key table _ _ :=
    truthful_swept (candidates narrow problem narrowSpace)
  have wideSwept : Sweep.Truthful wide benchmark problem key table _ _ :=
    truthful_swept (candidates wide problem wideSpace)
  have first := narrowSwept.record.eq_some_iff.mp found
  obtain ⟨better, betterFound, noSlower⟩ :=
    first.widen wideSwept.record (offered_subset sameRuns _ fewer) (finite_of_mem_offered finite)
  exact ⟨better, (finds_iff signed wideBuilt).mpr ⟨more, betterFound⟩, noSlower⟩

theorem fusible_subset {space other : Space} (fewer : space.candidates ⊆ other.candidates) :
    fusible problem space ⊆ fusible problem other :=
  List.filter_subset _ (Space.valid_subset fewer)

/-- A cap that is at least as high, or none, lets at least as many candidates through. -/
theorem candidates_subset_of_cap {space : Space} {limit : Nat} {raised : Option Nat}
    (higher : ∀ cap, cap ∈ raised → limit ≤ cap) :
    candidates { options with maxCandidates := some limit } problem space
      ⊆ candidates { options with maxCandidates := raised } problem space := by
  rw [candidates_eq_take, candidates_eq_take]
  cases raised with
  | none => simpa using List.take_subset limit (fusible problem space)
  | some cap => exact List.take_subset_take_left _ (higher cap rfl)

/-- The candidates of the full level are candidates of the exhaustive one, in order and
with the same flags, every quick candidate is one too, and the three levels grow in size.
Therefore a wider level never ends with a slower record than a narrower one, and neither
does a higher cap, whatever the table recorded before. -/
theorem wider_levels (problem : Problem) (validated : problem.validate = .ok ()) :
    (∃ quick full exhaustive,
      Space.build problem .quick = .ok quick ∧ Space.build problem .full = .ok full ∧
        Space.build problem .exhaustive = .ok exhaustive ∧
        full.candidates.Sublist exhaustive.candidates ∧
        quick.candidates ⊆ exhaustive.candidates ∧
        quick.size ≤ full.size ∧ full.size ≤ exhaustive.size) ∧
    ∀ (options : TunerOptions) (benchmark : Benchmark) (calls : Rows) (timing : Timing),
      (∀ level,
        Finds { options with level := level, maxCandidates := none } benchmark problem
          (.ofRows calls) timing →
        ∃ better,
          Finds { options with level := .exhaustive, maxCandidates := none } benchmark problem
            (.ofRows calls) better ∧ better.NoSlower timing) ∧
      ∀ limit raised, (∀ cap, cap ∈ raised → limit ≤ cap) →
        Finds { options with maxCandidates := some limit } benchmark problem
          (.ofRows calls) timing →
        ∃ better,
          Finds { options with maxCandidates := raised } benchmark problem
            (.ofRows calls) better ∧ better.NoSlower timing := by
  obtain ⟨quick, full, exhaustive, quickBuilt, fullBuilt, exhaustiveBuilt, sublist, subset,
    sizes⟩ := Space.exists_build_widening validated
  refine ⟨⟨quick, full, exhaustive, quickBuilt, fullBuilt, exhaustiveBuilt, sublist, subset,
    sizes⟩, ?_⟩
  intro options benchmark calls timing
  have signed : problem.signature = .ok problem.signatureText :=
    Problem.signature_eq_ok_iff.mpr ⟨validated, rfl⟩
  have finite : (Table.ofRows calls).AllFinite := Table.allFinite_ofRows calls
  constructor
  · intro level finds
    have built : ∃ space, Space.build problem level = .ok space ∧
        space.candidates ⊆ exhaustive.candidates := by
      cases level with
      | quick => exact ⟨quick, quickBuilt, subset⟩
      | full => exact ⟨full, fullBuilt, sublist.subset⟩
      | exhaustive => exact ⟨exhaustive, exhaustiveBuilt, List.Subset.refl _⟩
    obtain ⟨space, spaceBuilt, fewer⟩ := built
    exact finds.widen signed spaceBuilt exhaustiveBuilt rfl finite (fusible_subset fewer)
  · intro limit raised higher finds
    obtain ⟨space, built⟩ : ∃ space, Space.build problem options.level = .ok space :=
      ⟨_, Space.build_eq_ok_iff.mpr ⟨validated, rfl⟩⟩
    exact finds.widen signed built built rfl finite (candidates_subset_of_cap higher)

/-- One millisecond for every configuration of a product that the curated list suits. -/
theorem wider_levels_smallProduct :
    (∃ full, Space.build Space.smallProduct .full = .ok full ∧ 6 ≤ full.size) ∧
      ∃ timing better,
        Finds { level := .quick } (fun _ => some (.ofInt 1)) Space.smallProduct .empty timing ∧
          Finds { level := .exhaustive } (fun _ => some (.ofInt 1)) Space.smallProduct .empty
            better ∧
          better.NoSlower timing := by
  obtain ⟨⟨quick, full, _, quickBuilt, fullBuilt, _, _, _, larger, _⟩, faster⟩ :=
    wider_levels Space.smallProduct rfl
  have size : quick.size = 6 := by
    cases quickBuilt
    decide
  refine ⟨⟨full, fullBuilt, size ▸ larger⟩, ?_⟩
  have finds : Finds { level := .quick } (fun _ => some (.ofInt 1)) Space.smallProduct
      (.ofRows []) ⟨"v2:64,64,8,32,32,4,1,1,1", .ofInt 1⟩ := by
    apply (finds_iff rfl quickBuilt).mpr
    cases quickBuilt
    decide +kernel
  obtain ⟨better, found, noSlower⟩ := (faster {} _ [] _).1 .quick finds
  exact ⟨_, better, finds, found, noSlower⟩

end Tuner

end KernelTuning
