import KernelTuning.Text.Flags
import KernelTuning.Word

/-!
# Convolutions as matrix products

A forward convolution is tuned through the matrix product that computes it: one
row for each output channel of a group, one column for each output position of the
batch, and a reduction over the input channels of a group and the filter window.
All arithmetic is exact and every result is checked against 64 bits.
-/

namespace KernelTuning

/-- The dimensions of a batched matrix product: `g` products of an `m` by `k` with
a `k` by `n` matrix. -/
structure Shape where
  g : UInt64
  m : UInt64
  n : UInt64
  k : UInt64
  deriving DecidableEq, Inhabited, Repr

/-- The parameters of a forward convolution. -/
structure Convolution where
  batch : UInt64
  inChannels : UInt64
  outChannels : UInt64
  inHeight : UInt64
  inWidth : UInt64
  filterHeight : UInt64
  filterWidth : UInt64
  strideHeight : UInt64 := 1
  strideWidth : UInt64 := 1
  padHeight : UInt64 := 0
  padWidth : UInt64 := 0
  dilationHeight : UInt64 := 1
  dilationWidth : UInt64 := 1
  groups : UInt64 := 1
  deriving DecidableEq, Inhabited, Repr

namespace Convolution

/-- What keeps a convolution from being a matrix product. -/
inductive Fault where
  | noGroups
  | indivisibleChannels (inChannels outChannels groups : UInt64)
  | windowOutside
  | tooLarge
  deriving DecidableEq, Repr

namespace Fault

def message : Fault → String
  | .noGroups => "convolution groups must be > 0"
  | .indivisibleChannels inChannels outChannels groups =>
      s!"channels ({inChannels}, {outChannels}) not divisible by groups {groups}"
  | .windowOutside => "convolution window does not fit the padded input"
  | .tooLarge => "convolution implicit GEMM dimensions overflow"

end Fault

/-- The number of window positions along one axis, absent when there is none or
when the padded input or the dilated window does not fit 64 bits. -/
def outputExtent? (input filter stride pad dilation : UInt64) : Option Nat :=
  if stride = 0 ∨ dilation = 0 ∨ filter = 0 then none
  else do
    let reach ← Word.product? dilation.toNat (filter.toNat - 1)
    let window ← Word.sum? reach 1
    let padding ← Word.product? pad.toNat 2
    let padded ← Word.sum? padding input.toNat
    if padded < window then none
    else some ((padded - window) / stride.toNat + 1)

def outHeight? (convolution : Convolution) : Option Nat :=
  outputExtent? convolution.inHeight convolution.filterHeight
    convolution.strideHeight convolution.padHeight convolution.dilationHeight

def outWidth? (convolution : Convolution) : Option Nat :=
  outputExtent? convolution.inWidth convolution.filterWidth
    convolution.strideWidth convolution.padWidth convolution.dilationWidth

/-- The shape of the matrix product that computes a convolution. -/
def gemmShape (convolution : Convolution) : Except Fault Shape :=
  let groups := convolution.groups
  if groups = 0 then .error .noGroups
  else if convolution.inChannels % groups ≠ 0 ∨ convolution.outChannels % groups ≠ 0 then
    .error (.indivisibleChannels convolution.inChannels convolution.outChannels groups)
  else
    match convolution.outHeight?, convolution.outWidth? with
    | some height, some width =>
        let columns := do
          let rows ← Word.product? convolution.batch.toNat height
          Word.product? rows width
        let depth := do
          let rows ← Word.product? (convolution.inChannels / groups).toNat
            convolution.filterHeight.toNat
          Word.product? rows convolution.filterWidth.toNat
        match columns, depth with
        | some columns, some depth =>
            .ok
              { g := groups
                m := convolution.outChannels / groups
                n := UInt64.ofNat columns
                k := UInt64.ofNat depth }
        | _, _ => .error .tooLarge
    | _, _ => .error .windowOutside

/-- The flags that describe a convolution, with their values. -/
def flags (convolution : Convolution) : List (String × String) :=
  [("n", toString convolution.batch), ("c", toString convolution.inChannels),
    ("H", toString convolution.inHeight), ("W", toString convolution.inWidth),
    ("k", toString convolution.outChannels), ("y", toString convolution.filterHeight),
    ("x", toString convolution.filterWidth), ("p", toString convolution.padHeight),
    ("q", toString convolution.padWidth), ("u", toString convolution.strideHeight),
    ("v", toString convolution.strideWidth), ("l", toString convolution.dilationHeight),
    ("j", toString convolution.dilationWidth), ("g", toString convolution.groups)]

/-- The flags as one text. -/
def descriptor (convolution : Convolution) : String :=
  String.ofList ((Text.writeFlags convolution.flags).drop 1)

end Convolution

end KernelTuning
