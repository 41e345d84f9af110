import KernelTuning.Proofs.TuningSpace
import Mathlib.Order.MinMax

/-!
# Growing a problem

Which split factors a space contains depends on the whole shape, and fewer of them remain when
the output has more tiles.  The candidates that do not split the reduction are the same choice
of grid points for every shape, cut down to what the padded extents admit.  They are therefore
kept, in order and with their flags, when the extents of a problem grow.

Main statement: `Space.unsplit_grows`.
-/

namespace KernelTuning

theorem Word.nextPower_mono {extent larger : UInt64} (grows : extent ≤ larger) :
    nextPower extent ≤ nextPower larger := by
  have exponent : Nat.clog 2 extent.toNat ≤ Nat.clog 2 larger.toNat :=
    Nat.clog_mono_right 2 (UInt64.le_iff_toNat_le.mp grows)
  exact min_le_min_right _ (Nat.pow_le_pow_right Nat.two_pos exponent)

/-- The problem with another shape. -/
def Problem.withShape (problem : Problem) (shape : Shape) : Problem :=
  { problem with shape := shape }

namespace Space

variable {problem : Problem} {level : Level} {shape larger : Shape}

/-- The candidates that do not split the reduction, in order. -/
def unsplit (space : Space) : List Candidate :=
  space.candidates.filter fun candidate => candidate.config.splitK == 1

/-- The points of a level's grid that do not split the reduction. -/
def unsplitPoints (matrix : Bool) (level : Level) : List Config :=
  if matrix then (matrixPoints level [1]).map .matrix else (scalarPoints level).map .scalar

/-! ## The choice of grid points -/

private theorem filter_factors_unsplit (problem : Problem) (level : Level) :
    (SplitK.factors problem level).filter (· == 1) = [1] := by
  unfold SplitK.factors
  simp only
  split
  · rfl
  · split
    · rfl
    · split <;> rfl

/-- The shape decides which factors there are, but no splitting at all is always among them. -/
theorem filter_points_unsplit (problem : Problem) (level : Level) :
    (points problem level).filter (fun config => config.splitK == 1) =
      unsplitPoints problem.usesMatrix level := by
  unfold points unsplitPoints
  cases problem.usesMatrix with
  | true =>
      have selected := @filter_matrixPoints level (SplitK.factors problem level) (· == 1) rfl
      rw [filter_factors_unsplit] at selected
      simp only [if_true, List.filter_map]
      exact congrArg _ selected
  | false =>
      simp only [Bool.false_eq_true, if_false]
      apply List.filter_eq_self.mpr
      intro config member
      obtain ⟨knobs, _, rfl⟩ := List.mem_map.mp member
      rfl

theorem unsplit_eq {space : Space} (built : build problem level = .ok space) :
    space.unsplit =
      ((unsplitPoints problem.usesMatrix level).filter (admits problem)).map
        (candidate problem) := by
  obtain ⟨_, rfl⟩ := build_eq_ok_iff.mp built
  unfold unsplit
  rw [List.filter_map, ← filter_points_unsplit, List.filter_filter, List.filter_filter]
  refine congrArg _ (List.filter_congr fun config _ => ?_)
  exact Bool.and_comm _ _

/-! ## What the shape decides -/

theorem candidate_withShape (problem : Problem) (shape : Shape) :
    candidate (problem.withShape shape) = candidate problem := by
  funext config
  cases config <;> rfl

/-- No extent of the output and no reduction is shorter than the other shape's. -/
structure Grows (shape larger : Shape) : Prop where
  rows : shape.m ≤ larger.m
  columns : shape.n ≤ larger.n
  depth : shape.k ≤ larger.k

/-- Block tiles and steps are measured with the same padded extents. -/
structure PadsAlike (shape other : Shape) : Prop where
  rows : max 32 (Word.nextPower shape.m) = max 32 (Word.nextPower other.m)
  columns : max 32 (Word.nextPower shape.n) = max 32 (Word.nextPower other.n)
  depth : Word.nextPower shape.k = Word.nextPower other.k

private theorem Grows.fitsShape (grows : Grows shape larger) {config : Config}
    (fits : fitsShape shape config = true) : fitsShape larger config = true := by
  rw [fitsShape_iff] at fits ⊢
  obtain ⟨rows, columns, depth⟩ := fits
  refine ⟨rows.trans ?_, columns.trans ?_, depth.trans (Word.nextPower_mono grows.depth)⟩
  · exact max_le_max_left 32 (Word.nextPower_mono grows.rows)
  · exact max_le_max_left 32 (Word.nextPower_mono grows.columns)

private theorem PadsAlike.fitsShape_eq (alike : PadsAlike shape larger) (config : Config) :
    fitsShape shape config = fitsShape larger config := by
  rw [Bool.eq_iff_iff, fitsShape_iff, fitsShape_iff, alike.rows, alike.columns, alike.depth]

theorem Grows.sublist_unsplit {space grown : Space} (grows : Grows problem.shape larger)
    (built : build problem level = .ok space)
    (builtGrown : build (problem.withShape larger) level = .ok grown) :
    space.unsplit.Sublist grown.unsplit := by
  rw [unsplit_eq built, unsplit_eq builtGrown, candidate_withShape]
  apply List.Sublist.map
  apply List.monotone_filter_right
  intro config admitted
  obtain ⟨passes, fits⟩ := admits_iff.mp admitted
  exact admits_iff.mpr ⟨passes, grows.fitsShape fits⟩

theorem PadsAlike.unsplit_eq_unsplit {space other : Space} (alike : PadsAlike problem.shape shape)
    (built : build problem level = .ok space)
    (builtOther : build (problem.withShape shape) level = .ok other) :
    space.unsplit = other.unsplit := by
  rw [unsplit_eq built, unsplit_eq builtOther, candidate_withShape]
  refine congrArg _ (List.filter_congr fun config _ => ?_)
  exact congrArg (config.isLaunchable _ _ && ·) (alike.fitsShape_eq config)

/-- When the extents of a problem grow, the candidates that do not split its reduction stay in
its space, in order and with their flags, whatever becomes of the number of products.  They are
the same for all shapes whose extents are padded alike.  This covers extents up to the largest
word, where padding stops at that word. -/
theorem unsplit_grows (problem : Problem) (shape : Shape) (level : Level)
    (validated : problem.validate = .ok ())
    (validatedGrown : (problem.withShape shape).validate = .ok ()) :
    ∃ space grown, build problem level = .ok space ∧
      build (problem.withShape shape) level = .ok grown ∧
      (Grows problem.shape shape → space.unsplit.Sublist grown.unsplit) ∧
      (PadsAlike problem.shape shape → space.unsplit = grown.unsplit) := by
  have built : build problem level = .ok _ := build_eq_ok_iff.mpr ⟨validated, rfl⟩
  have builtGrown : build (problem.withShape shape) level = .ok _ :=
    build_eq_ok_iff.mpr ⟨validatedGrown, rfl⟩
  refine ⟨_, _, built, builtGrown, ?_, ?_⟩
  · exact fun grows => grows.sublist_unsplit built builtGrown
  · exact fun alike => alike.unsplit_eq_unsplit built builtGrown

/-- The longest possible reduction keeps the candidates of a short one, and extents that are
padded to the same powers have the same candidates. -/
theorem unsplit_grows_smallProduct :
    (smallProduct.validate = .ok () ∧
      (smallProduct.withShape ⟨3, 64, 128, 18446744073709551615⟩).validate = .ok () ∧
      ∃ space grown, build smallProduct .full = .ok space ∧
        build (smallProduct.withShape ⟨3, 64, 128, 18446744073709551615⟩) .full = .ok grown ∧
        space.unsplit.Sublist grown.unsplit) ∧
    (smallProduct.withShape ⟨2, 33, 64, 60⟩).validate = .ok () ∧
      ∃ space other, build smallProduct .full = .ok space ∧
        build (smallProduct.withShape ⟨2, 33, 64, 60⟩) .full = .ok other ∧
        space.unsplit = other.unsplit := by
  have grows : Grows smallProduct.shape ⟨3, 64, 128, 18446744073709551615⟩ := by
    constructor <;> decide
  have alike : PadsAlike smallProduct.shape ⟨2, 33, 64, 60⟩ := by
    constructor <;> decide
  obtain ⟨space, grown, built, builtGrown, kept, -⟩ :=
    unsplit_grows smallProduct ⟨3, 64, 128, 18446744073709551615⟩ .full rfl rfl
  obtain ⟨same, other, builtSame, builtOther, -, equal⟩ :=
    unsplit_grows smallProduct ⟨2, 33, 64, 60⟩ .full rfl rfl
  exact ⟨⟨rfl, rfl, space, grown, built, builtGrown, kept grows⟩,
    rfl, same, other, builtSame, builtOther, equal alike⟩

end Space

end KernelTuning
