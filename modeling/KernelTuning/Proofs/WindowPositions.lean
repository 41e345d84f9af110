import KernelTuning.Problem.Basic
import KernelTuning.Proofs.Checked
import Mathlib.Algebra.Order.Group.Nat
import Mathlib.Data.Set.Card
import Mathlib.Order.Interval.Finset.Nat

/-!
# Window positions

The extent of a convolution's result along an axis is the number of positions that its window
has on the padded input, and the matrix product of the convolution is the product over these
positions.  Nothing is lost to the size of a word: a shape is missing only where the exact
numbers do not fit, and the whole computation can be done on words without a fault.

Main statement: `Convolution.gemmShape_exact`.
-/

namespace KernelTuning

/-! ## Operations on words -/

namespace Word

theorem product?_eq_some_iff {left right result : Nat} :
    product? left right = some result ↔ left * right < 2 ^ 64 ∧ result = left * right := by
  have bound : max64 = 2 ^ 64 - 1 := rfl
  rw [product?, Option.ite_none_right_eq_some, Option.some.injEq, bound]
  omega

theorem sum?_eq_some_iff {left right result : Nat} :
    sum? left right = some result ↔ left + right < 2 ^ 64 ∧ result = left + right := by
  have bound : max64 = 2 ^ 64 - 1 := rfl
  rw [sum?, Option.ite_none_right_eq_some, Option.some.injEq, bound]
  omega

/-- A first product that does not fit is not brought back by a positive factor. -/
private theorem product?_bind_eq_some_iff {first second third result : Nat} (positive : 0 < third) :
    (product? first second).bind (product? · third) = some result ↔
      first * second * third < 2 ^ 64 ∧ result = first * second * third := by
  simp only [Option.bind_eq_some_iff, product?_eq_some_iff]
  constructor
  · rintro ⟨_, ⟨_, rfl⟩, fits⟩
    exact fits
  · rintro ⟨fits, equal⟩
    have smaller : first * second ≤ first * second * third :=
      Nat.le_mul_of_pos_right _ positive
    exact ⟨_, ⟨smaller.trans_lt fits, rfl⟩, fits, equal⟩

/-- What an operation on words can run into. -/
inductive Fault where
  | sum
  | difference
  | divisor
  deriving DecidableEq, Repr

/-- A sum that must not wrap. -/
def plus (left right : UInt64) : Except Fault UInt64 :=
  if left.toNat + right.toNat < 2 ^ 64 then .ok (left + right) else .error .sum

/-- A difference that must not wrap. -/
def minus (left right : UInt64) : Except Fault UInt64 :=
  if right ≤ left then .ok (left - right) else .error .difference

def quotient (dividend divisor : UInt64) : Except Fault UInt64 :=
  if divisor = 0 then .error .divisor else .ok (dividend / divisor)

def remainder (dividend divisor : UInt64) : Except Fault UInt64 :=
  if divisor = 0 then .error .divisor else .ok (dividend % divisor)

/-- A product, absent where it would wrap. -/
def times? (left right : UInt64) : Option UInt64 :=
  if left.toNat * right.toNat < 2 ^ 64 then some (left * right) else none

/-- A sum, absent where it would wrap. -/
def plus? (left right : UInt64) : Option UInt64 :=
  if left.toNat + right.toNat < 2 ^ 64 then some (left + right) else none

section Exact

variable {left right : UInt64}

private theorem plus_eq_ok (fits : left.toNat + right.toNat < 2 ^ 64) :
    plus left right = .ok (left + right) ∧
      (left + right).toNat = left.toNat + right.toNat := by
  refine ⟨if_pos fits, ?_⟩
  rw [UInt64.toNat_add, Nat.mod_eq_of_lt fits]

private theorem minus_eq_ok (ordered : right.toNat ≤ left.toNat) :
    minus left right = .ok (left - right) ∧
      (left - right).toNat = left.toNat - right.toNat := by
  have fits : right ≤ left := UInt64.le_iff_toNat_le.mpr ordered
  exact ⟨if_pos fits, UInt64.toNat_sub_of_le _ _ fits⟩

private theorem quotient_eq_ok (divisor : right ≠ 0) : quotient left right = .ok (left / right) :=
  if_neg divisor

private theorem remainder_eq_ok (divisor : right ≠ 0) : remainder left right = .ok (left % right) :=
  if_neg divisor

theorem toNat_times? (left right : UInt64) :
    (times? left right).map UInt64.toNat = product? left.toNat right.toNat := by
  apply Option.ext
  intro result
  rw [product?_eq_some_iff, times?]
  split
  · rename_i fits
    simp only [Option.map_some, Option.some.injEq, UInt64.toNat_mul, Nat.mod_eq_of_lt fits]
    omega
  · rename_i exceeds
    exact iff_of_false nofun fun product => exceeds product.1

private theorem toNat_plus? (left right : UInt64) :
    (plus? left right).map UInt64.toNat = sum? left.toNat right.toNat := by
  apply Option.ext
  intro result
  rw [sum?_eq_some_iff, plus?]
  split
  · rename_i fits
    simp only [Option.map_some, Option.some.injEq, UInt64.toNat_add, Nat.mod_eq_of_lt fits]
    omega
  · rename_i exceeds
    exact iff_of_false nofun fun sum => exceeds sum.1

end Exact

/-- Two operations one after the other on words, read as numbers. -/
theorem toNat_bind {next : UInt64 → Option UInt64} (exact : Nat → Option Nat)
    (step : ∀ word, (next word).map UInt64.toNat = exact word.toNat) (first : Option UInt64) :
    (first.bind next).map UInt64.toNat = (first.map UInt64.toNat).bind exact := by
  cases first with
  | none => rfl
  | some word => exact step word

private theorem toNat_times?_plus? (left right addend : UInt64) :
    ((times? left right).bind (plus? · addend)).map UInt64.toNat =
      (product? left.toNat right.toNat).bind (sum? · addend.toNat) := by
  rw [toNat_bind (sum? · addend.toNat) (toNat_plus? · addend), toNat_times?]

private theorem toNat_times?_times? (left right factor : UInt64) :
    ((times? left right).bind (times? · factor)).map UInt64.toNat =
      (product? left.toNat right.toNat).bind (product? · factor.toNat) := by
  rw [toNat_bind (product? · factor.toNat) (toNat_times? · factor), toNat_times?]

end Word

/-! ## One axis -/

/-- One axis of a convolution. -/
structure Axis where
  input : UInt64
  filter : UInt64
  stride : UInt64
  pad : UInt64
  dilation : UInt64

namespace Axis

variable {axis : Axis}

/-- Elements from the first to the last of a dilated window. -/
def window (axis : Axis) : Nat := axis.dilation.toNat * (axis.filter.toNat - 1) + 1

/-- Elements of the input with padding on both sides. -/
def padded (axis : Axis) : Nat := 2 * axis.pad.toNat + axis.input.toNat

/-- The steps after which the window still lies on the padded input. -/
def positions (axis : Axis) : Set Nat :=
  {step | step * axis.stride.toNat + axis.window ≤ axis.padded}

/-- The window is not degenerate and lies on a padded input whose size is a word. -/
structure Covered (axis : Axis) : Prop where
  stride : 0 < axis.stride.toNat
  dilation : 0 < axis.dilation.toNat
  filter : 0 < axis.filter.toNat
  word : axis.padded < 2 ^ 64
  room : axis.window ≤ axis.padded

/-- The extent of the result along the axis. -/
def extent? (axis : Axis) : Option Nat :=
  Convolution.outputExtent? axis.input axis.filter axis.stride axis.pad axis.dilation

private theorem Covered.positions_eq (covered : axis.Covered) :
    axis.positions =
      Finset.range ((axis.padded - axis.window) / axis.stride.toNat + 1) := by
  have room := covered.room
  ext step
  rw [Finset.mem_coe, Finset.mem_range, Nat.lt_succ_iff, Nat.le_div_iff_mul_le covered.stride]
  change step * axis.stride.toNat + axis.window ≤ axis.padded ↔ _
  omega

theorem Covered.ncard_positions (covered : axis.Covered) :
    axis.positions.ncard = (axis.padded - axis.window) / axis.stride.toNat + 1 := by
  rw [covered.positions_eq, Set.ncard_coe_finset, Finset.card_range]

theorem Covered.ncard_pos (covered : axis.Covered) : 0 < axis.positions.ncard := by
  rw [covered.ncard_positions]
  exact Nat.succ_pos _

theorem not_degenerate_iff :
    ¬(axis.stride = 0 ∨ axis.dilation = 0 ∨ axis.filter = 0) ↔
      0 < axis.stride.toNat ∧ 0 < axis.dilation.toNat ∧ 0 < axis.filter.toNat := by
  simp only [← UInt64.toNat_inj, UInt64.toNat_zero]
  omega

theorem extent?_eq_some_iff (axis : Axis) {extent : Nat} :
    axis.extent? = some extent ↔ axis.Covered ∧ extent = axis.positions.ncard := by
  rw [extent?, Convolution.outputExtent?]
  split
  · rename_i degenerate
    exact iff_of_false nofun fun ⟨covered, _⟩ =>
      not_degenerate_iff.mpr ⟨covered.stride, covered.dilation, covered.filter⟩ degenerate
  · rename_i proper
    obtain ⟨stride, dilation, filter⟩ := not_degenerate_iff.mp proper
    simp only [Option.bind_eq_bind, Option.bind_eq_some_iff, Word.product?_eq_some_iff,
      Word.sum?_eq_some_iff]
    constructor
    · rintro ⟨_, ⟨_, rfl⟩, _, ⟨_, rfl⟩, _, ⟨_, rfl⟩, _, ⟨word, rfl⟩, steps⟩
      rw [Nat.mul_comm axis.pad.toNat 2] at word steps
      rw [Option.ite_none_left_eq_some, Nat.not_lt, Option.some.injEq] at steps
      have covered : axis.Covered := ⟨stride, dilation, filter, word, steps.1⟩
      exact ⟨covered, steps.2.symm.trans covered.ncard_positions.symm⟩
    · rintro ⟨covered, rfl⟩
      have word : 2 * axis.pad.toNat + axis.input.toNat < 2 ^ 64 := covered.word
      have room : axis.dilation.toNat * (axis.filter.toNat - 1) + 1 ≤
          2 * axis.pad.toNat + axis.input.toNat := covered.room
      refine ⟨_, ⟨by omega, rfl⟩, _, ⟨by omega, rfl⟩, _, ⟨by omega, rfl⟩, _, ⟨by omega, rfl⟩, ?_⟩
      rw [Nat.mul_comm axis.pad.toNat 2, if_neg (Nat.not_lt.mpr room), covered.ncard_positions]
      rfl

/-- Window and padded input are computed without each other. -/
private theorem extent?_eq_bind
    (proper : ¬(axis.stride = 0 ∨ axis.dilation = 0 ∨ axis.filter = 0)) :
    axis.extent? =
      ((Word.product? axis.dilation.toNat (axis.filter.toNat - 1)).bind (Word.sum? · 1)).bind
        fun window =>
          ((Word.product? axis.pad.toNat 2).bind (Word.sum? · axis.input.toNat)).bind
            fun padded =>
              if padded < window then none
              else some ((padded - window) / axis.stride.toNat + 1) := by
  rw [extent?, Convolution.outputExtent?, if_neg proper]
  simp only [Option.bind_eq_bind, Option.bind_assoc]

/-- The steps between the ends of a window and of the padded input, and one more. -/
def stepsOnWords (window padded stride : UInt64) : Except Word.Fault (Option UInt64) :=
  if padded < window then .ok none
  else do
    let room ← Word.minus padded window
    let steps ← Word.quotient room stride
    let extent ← Word.plus steps 1
    return some extent

/-- The same extent computed on words. -/
def extentOnWords (axis : Axis) : Except Word.Fault (Option UInt64) :=
  if axis.stride = 0 ∨ axis.dilation = 0 ∨ axis.filter = 0 then .ok none
  else do
    let gaps ← Word.minus axis.filter 1
    let window := (Word.times? axis.dilation gaps).bind (Word.plus? · 1)
    let padded := (Word.times? axis.pad 2).bind (Word.plus? · axis.input)
    match window, padded with
    | some window, some padded => stepsOnWords window padded axis.stride
    | _, _ => .ok none

/-- A window has an element, so that one more than the last step is still a word. -/
private theorem stepsOnWords_eq {window padded stride : UInt64} (element : 0 < window.toNat)
    (proper : stride ≠ 0) :
    ∃ extent, stepsOnWords window padded stride = .ok extent ∧
      extent.map UInt64.toNat =
        if padded.toNat < window.toNat then none
        else some ((padded.toNat - window.toNat) / stride.toNat + 1) := by
  rw [stepsOnWords]
  by_cases outside : padded < window
  · rw [if_pos outside, if_pos (UInt64.lt_iff_toNat_lt.mp outside)]
    exact ⟨none, rfl, rfl⟩
  · have inside : ¬padded.toNat < window.toNat := outside ∘ UInt64.lt_iff_toNat_lt.mpr
    obtain ⟨difference, room⟩ := Word.minus_eq_ok (Nat.not_lt.mp inside)
    have quotient : ((padded - window) / stride).toNat =
        (padded.toNat - window.toNat) / stride.toNat := by
      rw [UInt64.toNat_div, room]
    have fits : ((padded - window) / stride).toNat + (1 : UInt64).toNat < 2 ^ 64 := by
      have steps := Nat.div_le_self (padded.toNat - window.toNat) stride.toNat
      have word := padded.toNat_lt
      rw [quotient, UInt64.toNat_one]
      omega
    obtain ⟨sum, extent⟩ := Word.plus_eq_ok fits
    rw [if_neg outside, if_neg inside, bind_of_eq_ok difference,
      bind_of_eq_ok (Word.quotient_eq_ok proper), bind_of_eq_ok sum]
    refine ⟨some ((padded - window) / stride + 1), rfl, ?_⟩
    rw [Option.map_some, extent, quotient]
    rfl

theorem extentOnWords_eq :
    ∃ extent, axis.extentOnWords = .ok extent ∧ extent.map UInt64.toNat = axis.extent? := by
  by_cases degenerate : axis.stride = 0 ∨ axis.dilation = 0 ∨ axis.filter = 0
  · exact ⟨none, if_pos degenerate, (if_pos degenerate).symm⟩
  · obtain ⟨stride, dilation, filter⟩ := not_degenerate_iff.mp degenerate
    obtain ⟨gaps, gapsExact⟩ := @Word.minus_eq_ok axis.filter 1 filter
    have window := Word.toNat_times?_plus? axis.dilation (axis.filter - 1) 1
    have padded := Word.toNat_times?_plus? axis.pad 2 axis.input
    have two : (2 : UInt64).toNat = 2 := rfl
    rw [gapsExact, UInt64.toNat_one] at window
    rw [two] at padded
    rw [extentOnWords, if_neg degenerate, extent?_eq_bind degenerate, ← window, ← padded,
      bind_of_eq_ok gaps]
    cases found : (Word.times? axis.dilation (axis.filter - 1)).bind (Word.plus? · 1) with
    | none => exact ⟨none, rfl, rfl⟩
    | some words =>
        cases (Word.times? axis.pad 2).bind (Word.plus? · axis.input) with
        | none => exact ⟨none, rfl, rfl⟩
        | some padded =>
            rw [found, Option.map_some] at window
            obtain ⟨gaps, _, sum⟩ := Option.bind_eq_some_iff.mp window.symm
            have element : 0 < words.toNat := by
              rw [(Word.sum?_eq_some_iff.mp sum).2]
              exact Nat.succ_pos gaps
            exact stepsOnWords_eq element (not_or.mp degenerate).1

end Axis

/-! ## The matrix product -/

namespace Convolution

variable {convolution : Convolution}

def rowAxis (convolution : Convolution) : Axis :=
  ⟨convolution.inHeight, convolution.filterHeight, convolution.strideHeight,
    convolution.padHeight, convolution.dilationHeight⟩

def columnAxis (convolution : Convolution) : Axis :=
  ⟨convolution.inWidth, convolution.filterWidth, convolution.strideWidth,
    convolution.padWidth, convolution.dilationWidth⟩

/-- Window positions of the whole batch. -/
noncomputable def breadth (convolution : Convolution) : Nat :=
  convolution.batch.toNat * convolution.rowAxis.positions.ncard *
    convolution.columnAxis.positions.ncard

/-- Elements that one output value is summed from. -/
def depth (convolution : Convolution) : Nat :=
  convolution.inChannels.toNat / convolution.groups.toNat * convolution.filterHeight.toNat *
    convolution.filterWidth.toNat

/-- A convolution whose matrix product has dimensions that are words. -/
structure IsProduct (convolution : Convolution) : Prop where
  groups : 0 < convolution.groups.toNat
  inputs : convolution.groups.toNat ∣ convolution.inChannels.toNat
  outputs : convolution.groups.toNat ∣ convolution.outChannels.toNat
  rows : convolution.rowAxis.Covered
  columns : convolution.columnAxis.Covered
  breadth : convolution.breadth < 2 ^ 64
  depth : convolution.depth < 2 ^ 64

/-- The shape of the matrix product in unbounded numbers. -/
structure HasShape (convolution : Convolution) (shape : Shape) : Prop where
  g : shape.g = convolution.groups
  m : shape.m.toNat = convolution.outChannels.toNat / convolution.groups.toNat
  n : shape.n.toNat = convolution.breadth
  k : shape.k.toNat = convolution.depth

theorem HasShape.unique {shape other : Shape} (has : convolution.HasShape shape)
    (otherHas : convolution.HasShape other) : shape = other := by
  have g := has.g.trans otherHas.g.symm
  have m := UInt64.toNat_inj.mp (has.m.trans otherHas.m.symm)
  have n := UInt64.toNat_inj.mp (has.n.trans otherHas.n.symm)
  have k := UInt64.toNat_inj.mp (has.k.trans otherHas.k.symm)
  cases shape
  cases other
  rw [Shape.mk.injEq]
  exact ⟨g, m, n, k⟩

theorem IsProduct.hasShape (product : convolution.IsProduct) :
    convolution.HasShape ⟨convolution.groups, convolution.outChannels / convolution.groups,
      UInt64.ofNat convolution.breadth, UInt64.ofNat convolution.depth⟩ :=
  ⟨rfl, UInt64.toNat_div _ _, UInt64.toNat_ofNat_of_lt' product.breadth,
    UInt64.toNat_ofNat_of_lt' product.depth⟩

theorem outHeight?_eq_extent? : convolution.outHeight? = convolution.rowAxis.extent? := rfl

theorem outWidth?_eq_extent? : convolution.outWidth? = convolution.columnAxis.extent? := rfl

private theorem groups_ne_zero_iff : convolution.groups ≠ 0 ↔ 0 < convolution.groups.toNat := by
  rw [ne_eq, ← UInt64.toNat_inj, UInt64.toNat_zero]
  omega

private theorem divides_iff {channels groups : UInt64} :
    channels % groups = 0 ↔ groups.toNat ∣ channels.toNat := by
  rw [← UInt64.toNat_inj, UInt64.toNat_mod, UInt64.toNat_zero, Nat.dvd_iff_mod_eq_zero]

theorem gemmShape_eq_ok_iff {shape : Shape} :
    convolution.gemmShape = .ok shape ↔
      convolution.IsProduct ∧ convolution.HasShape shape := by
  rw [gemmShape]
  split
  · rename_i noGroups
    exact iff_of_false nofun fun ⟨product, _⟩ => groups_ne_zero_iff.mpr product.groups noGroups
  · rename_i groups
    split
    · rename_i indivisible
      refine iff_of_false nofun fun ⟨product, _⟩ => ?_
      rcases indivisible with input | output
      · exact input (divides_iff.mpr product.inputs)
      · exact output (divides_iff.mpr product.outputs)
    · rename_i divisible
      rw [not_or, not_not, not_not, divides_iff, divides_iff] at divisible
      rw [outHeight?_eq_extent?, outWidth?_eq_extent?]
      split
      · rename_i height width heightFound widthFound
        obtain ⟨rows, rfl⟩ := (Axis.extent?_eq_some_iff _).mp heightFound
        obtain ⟨columns, rfl⟩ := (Axis.extent?_eq_some_iff _).mp widthFound
        have wide : 0 < convolution.filterWidth.toNat := columns.filter
        have channels : (convolution.inChannels / convolution.groups).toNat =
            convolution.inChannels.toNat / convolution.groups.toNat := UInt64.toNat_div _ _
        simp only [Option.bind_eq_bind, channels]
        split
        · rename_i breadth depth breadthFound depthFound
          rw [Word.product?_bind_eq_some_iff columns.ncard_pos] at breadthFound
          rw [Word.product?_bind_eq_some_iff wide] at depthFound
          obtain ⟨breadthFits, rfl⟩ := breadthFound
          obtain ⟨depthFits, rfl⟩ := depthFound
          have product : convolution.IsProduct :=
            ⟨groups_ne_zero_iff.mp groups, divisible.1, divisible.2, rows, columns, breadthFits,
              depthFits⟩
          constructor
          · rintro ⟨rfl⟩
            exact ⟨product, product.hasShape⟩
          · rintro ⟨_, has⟩
            exact congrArg Except.ok (product.hasShape.unique has)
        · rename_i missing
          refine iff_of_false nofun fun ⟨product, _⟩ => ?_
          exact missing _ _
            ((Word.product?_bind_eq_some_iff columns.ncard_pos).mpr ⟨product.breadth, rfl⟩)
            ((Word.product?_bind_eq_some_iff wide).mpr ⟨product.depth, rfl⟩)
      · rename_i missing
        refine iff_of_false nofun fun ⟨product, _⟩ => ?_
        exact missing _ _ ((Axis.extent?_eq_some_iff _).mpr ⟨product.rows, rfl⟩)
          ((Axis.extent?_eq_some_iff _).mpr ⟨product.columns, rfl⟩)

/-- The same shape computed on words. -/
def gemmShapeOnWords (convolution : Convolution) : Except Word.Fault (Except Fault Shape) :=
  if convolution.groups = 0 then .ok (.error .noGroups)
  else do
    let inputRest ← Word.remainder convolution.inChannels convolution.groups
    let outputRest ← Word.remainder convolution.outChannels convolution.groups
    if inputRest ≠ 0 ∨ outputRest ≠ 0 then
      return .error (.indivisibleChannels convolution.inChannels convolution.outChannels
        convolution.groups)
    else
      let height ← convolution.rowAxis.extentOnWords
      let width ← convolution.columnAxis.extentOnWords
      let channels ← Word.quotient convolution.inChannels convolution.groups
      let rows ← Word.quotient convolution.outChannels convolution.groups
      match height, width with
      | some height, some width =>
          let columns := (Word.times? convolution.batch height).bind (Word.times? · width)
          let depth := (Word.times? channels convolution.filterHeight).bind
            (Word.times? · convolution.filterWidth)
          match columns, depth with
          | some columns, some depth =>
              return .ok ⟨convolution.groups, rows, columns, depth⟩
          | _, _ => return .error .tooLarge
      | _, _ => return .error .windowOutside

theorem gemmShapeOnWords_eq : convolution.gemmShapeOnWords = .ok convolution.gemmShape := by
  rw [gemmShapeOnWords, gemmShape]
  split
  · rfl
  · rename_i groups
    obtain ⟨height, rowsComputed, rows⟩ := convolution.rowAxis.extentOnWords_eq
    obtain ⟨width, columnsComputed, columns⟩ := convolution.columnAxis.extentOnWords_eq
    rw [bind_of_eq_ok (Word.remainder_eq_ok groups), bind_of_eq_ok (Word.remainder_eq_ok groups)]
    split
    · rfl
    · rw [bind_of_eq_ok rowsComputed, bind_of_eq_ok columnsComputed,
        bind_of_eq_ok (Word.quotient_eq_ok groups), bind_of_eq_ok (Word.quotient_eq_ok groups),
        outHeight?_eq_extent?, outWidth?_eq_extent?, ← rows, ← columns]
      cases height with
      | none => rfl
      | some height =>
          cases width with
          | none => rfl
          | some width =>
              simp only [Option.map_some, Option.bind_eq_bind]
              rw [← Word.toNat_times?_times?, ← Word.toNat_times?_times?]
              cases (Word.times? convolution.batch height).bind (Word.times? · width) with
              | none => rfl
              | some columns =>
                  cases (Word.times? (convolution.inChannels / convolution.groups)
                      convolution.filterHeight).bind
                        (Word.times? · convolution.filterWidth) with
                  | none => rfl
                  | some depth =>
                      simp only [Option.map_some, UInt64.ofNat_toNat]
                      rfl

theorem exists_gemmShape_iff :
    (∃ shape, convolution.gemmShape = .ok shape) ↔ convolution.IsProduct := by
  simp only [gemmShape_eq_ok_iff, exists_and_left, and_iff_left_iff_imp]
  exact fun product => ⟨_, product.hasShape⟩

/-- Only the batch and the channels can make a dimension vanish. -/
theorem IsProduct.positive_iff (product : convolution.IsProduct) {shape : Shape}
    (has : convolution.HasShape shape) :
    ¬(shape.g = 0 ∨ shape.m = 0 ∨ shape.n = 0 ∨ shape.k = 0) ↔
      0 < convolution.batch.toNat ∧ 0 < convolution.inChannels.toNat ∧
        0 < convolution.outChannels.toNat := by
  have quotient : ∀ {channels : Nat}, convolution.groups.toNat ∣ channels →
      (0 < channels / convolution.groups.toNat ↔ 0 < channels) := fun divides =>
    ⟨fun positive => positive.trans_le (Nat.div_le_self _ _),
      fun positive => Nat.div_pos (Nat.le_of_dvd positive divides) product.groups⟩
  have breadth : 0 < convolution.breadth ↔ 0 < convolution.batch.toNat := by
    rw [Convolution.breadth, Nat.mul_pos_iff_of_pos_right product.columns.ncard_pos,
      Nat.mul_pos_iff_of_pos_right product.rows.ncard_pos]
  have high : 0 < convolution.filterHeight.toNat := product.rows.filter
  have wide : 0 < convolution.filterWidth.toNat := product.columns.filter
  have depth : 0 < convolution.depth ↔ 0 < convolution.inChannels.toNat := by
    rw [Convolution.depth, Nat.mul_pos_iff_of_pos_right wide,
      Nat.mul_pos_iff_of_pos_right high, quotient product.inputs]
  have rows := quotient product.outputs
  rw [← breadth, ← depth, ← rows, ← has.m, ← has.n, ← has.k]
  have groups := product.groups
  rw [← has.g] at groups
  simp only [← UInt64.toNat_inj, UInt64.toNat_zero]
  omega

end Convolution

/-! ## The problem of a convolution -/

namespace Problem

theorem validate_eq_ok_iff {problem : Problem} :
    problem.validate = .ok () ↔
      ¬(problem.shape.g = 0 ∨ problem.shape.m = 0 ∨ problem.shape.n = 0 ∨ problem.shape.k = 0) ∧
        problem.target.computeUnits ≠ 0 ∧ problem.checkConvolution = .ok () := by
  by_cases empty : problem.shape.g = 0 ∨ problem.shape.m = 0 ∨ problem.shape.n = 0 ∨
      problem.shape.k = 0
  · have stopped : problem.validate = .error (.emptyShape problem.shape) := if_pos empty
    rw [stopped]
    exact iff_of_false nofun fun valid => valid.1 empty
  · by_cases idle : problem.target.computeUnits = 0
    · have stopped : problem.validate = .error .noComputeUnits :=
        (if_neg empty).trans (if_pos idle)
      rw [stopped]
      exact iff_of_false nofun fun valid => valid.2.1 idle
    · have passed : problem.validate = problem.checkConvolution :=
        (if_neg empty).trans (if_neg idle)
      rw [passed, and_iff_right empty, and_iff_right idle]

theorem validate_ofConvolution_iff
    {convolution : Convolution} {type : ElementType} {target : Target} {problem : Problem}
    (computed : ofConvolution convolution type target = .ok problem) :
    problem.validate = .ok () ↔
      0 < convolution.batch.toNat ∧ 0 < convolution.inChannels.toNat ∧
        0 < convolution.outChannels.toNat ∧ 0 < target.computeUnits.toNat := by
  obtain ⟨shape, found, rest⟩ := bind_eq_ok_iff.mp computed
  obtain ⟨product, has⟩ := Convolution.gemmShape_eq_ok_iff.mp found
  have positive := product.positive_iff has
  have units : target.computeUnits ≠ 0 ↔ 0 < target.computeUnits.toNat := by
    rw [ne_eq, ← UInt32.toNat_inj, UInt32.toNat_zero]
    omega
  cases rest
  have agrees : checkConvolution { gemm shape type target with
      operation := .convolution
      convolution := some convolution } = .ok () := by
    rw [checkConvolution]
    simp only [found]
    exact if_pos rfl
  rw [validate_eq_ok_iff, and_iff_left agrees]
  refine (and_congr positive units).trans ?_
  rw [and_assoc, and_assoc]

end Problem

namespace Convolution

/-- Along each axis the extent is present exactly where the window is not degenerate and lies on
a padded input that is a word, and it is the number of window positions.  A convolution has a
shape exactly where it is a product whose dimensions are words, and the shape is the exact one.
The computation never faults on words, and the problem of a convolution passes its check exactly
where no extent is zero. -/
theorem gemmShape_exact (convolution : Convolution) (type : ElementType) (target : Target) :
    (∀ extent, convolution.outHeight? = some extent ↔
      convolution.rowAxis.Covered ∧ extent = convolution.rowAxis.positions.ncard) ∧
    (∀ extent, convolution.outWidth? = some extent ↔
      convolution.columnAxis.Covered ∧ extent = convolution.columnAxis.positions.ncard) ∧
    ((∃ shape, convolution.gemmShape = .ok shape) ↔ convolution.IsProduct) ∧
    (∀ shape, convolution.gemmShape = .ok shape → convolution.HasShape shape) ∧
    convolution.gemmShapeOnWords = .ok convolution.gemmShape ∧
    ∀ problem, Problem.ofConvolution convolution type target = .ok problem →
      (problem.validate = .ok () ↔
        0 < convolution.batch.toNat ∧ 0 < convolution.inChannels.toNat ∧
          0 < convolution.outChannels.toNat ∧ 0 < target.computeUnits.toNat) :=
  ⟨fun _ => convolution.rowAxis.extent?_eq_some_iff,
    fun _ => convolution.columnAxis.extent?_eq_some_iff, exists_gemmShape_iff,
    fun _ found => (gemmShape_eq_ok_iff.mp found).2, gemmShapeOnWords_eq,
    fun _ => Problem.validate_ofConvolution_iff⟩

/-- Two images of 56 by 56 under a padded window of three by three. -/
theorem gemmShape_exact_paddedWindow :
    ∃ problem,
      Problem.ofConvolution ⟨2, 64, 128, 56, 56, 3, 3, 1, 1, 1, 1, 1, 1, 1⟩ .f16
          ⟨"gfx1100", .rdna3, 32, 96, 65536⟩ = .ok problem ∧
        problem.shape = ⟨1, 128, 6272, 576⟩ ∧ problem.validate = .ok () := by
  refine ⟨_, rfl, rfl, ?_⟩
  obtain ⟨-, -, -, -, -, validated⟩ :=
    gemmShape_exact ⟨2, 64, 128, 56, 56, 3, 3, 1, 1, 1, 1, 1, 1, 1⟩ .f16
      ⟨"gfx1100", .rdna3, 32, 96, 65536⟩
  exact (validated _ rfl).mpr (by decide)

end Convolution

end KernelTuning
