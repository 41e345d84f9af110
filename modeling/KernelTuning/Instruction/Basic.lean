import KernelTuning.Target
import KernelTuning.Word

/-!
# Matrix instructions

The matrix instruction that a kernel issues follows from the target, the operand
types and the tile of one wave.  Tuning needs its input length, the number of
K elements that one invocation consumes: a tiling that holds fewer cannot feed it.
-/

namespace KernelTuning

/-- A wave matrix instruction; its tile is square. -/
structure WmmaInstruction where
  name : String
  inputLength : UInt32
  outputLength : UInt32
  outputStride : UInt32
  mRepeats : UInt32
  nRepeats : UInt32
  argument : ElementType
  result : ElementType
  deriving DecidableEq, Repr

namespace WmmaInstruction

/-- Side of the tile and number of K elements of every instruction of the kind. -/
def side : UInt32 := 16

def nameFor? : ElementType → Option String
  | .f16 => some "rocdl.wmma.f32.16x16x16.f16"
  | .bf16 => some "rocdl.wmma.f32.16x16x16.bf16"
  | .i8 => some "rocdl.wmma.i32.16x16x16.iu8"
  | .f32 | .i32 => none

/-- The instruction for a wave tile of `m` by `n`. -/
def select? (a b : ElementType) (waveSize m n : UInt32) : Option WmmaInstruction :=
  if a ≠ b ∨ waveSize ≠ 32 then none
  else if m % side ≠ 0 ∨ n % side ≠ 0 then none
  else do
    let name ← nameFor? a
    some
      { name := name
        inputLength := side
        outputLength := 8
        outputStride := 2
        mRepeats := m / side
        nRepeats := n / side
        argument := a
        result := a.accumulator }

end WmmaInstruction

/-- A matrix fused-multiply-add instruction. -/
structure MfmaInstruction where
  name : String
  /-- Side of the square tile of one invocation. -/
  side : UInt32
  /-- K elements per lane and invocation. -/
  kBase : UInt32
  mRepeats : UInt32
  nRepeats : UInt32
  argument : ElementType
  result : ElementType
  deriving DecidableEq, Repr

namespace MfmaInstruction

/-- The larger of the two tile sides that divides the wave tile. -/
def sideFor? (m n : UInt32) : Option UInt32 :=
  [32, 16].find? fun side => m % side == 0 && n % side == 0

/-- Name and K elements of the instruction with a given tile side.  The newest
generation consumes twice as many bytes at once. -/
def variant? (generation : Generation) (type : ElementType) (side : UInt32) :
    Option (String × UInt32) :=
  let wide := side == 32
  match type with
  | .f32 =>
      some (if wide then "rocdl.mfma.f32.32x32x2f32" else "rocdl.mfma.f32.16x16x4f32", 1)
  | .f16 =>
      some (if wide then "rocdl.mfma.f32.32x32x8f16" else "rocdl.mfma.f32.16x16x16f16", 4)
  | .bf16 =>
      some (if wide then "rocdl.mfma.f32.32x32x8bf16.1k"
        else "rocdl.mfma.f32.16x16x16bf16.1k", 4)
  | .i8 =>
      if generation = .cdna3 then
        some (if wide then "rocdl.mfma.i32.32x32x16.i8"
          else "rocdl.mfma.i32.16x16x32.i8", 8)
      else
        some (if wide then "rocdl.mfma.i32.32x32x8i8"
          else "rocdl.mfma.i32.16x16x16i8", 4)
  | .i32 => none

/-- The instruction for a wave tile of `m` by `n`. -/
def select? (target : Target) (a b : ElementType) (m n : UInt32) :
    Option MfmaInstruction :=
  if a ≠ b ∨ target.waveSize ≠ 64 ∨ target.hasMfma = false then none
  else do
    let side ← sideFor? m n
    let (name, kBase) ← variant? target.generation a side
    some
      { name := name
        side := side
        kBase := kBase
        mRepeats := m / side
        nRepeats := n / side
        argument := a
        result := a.accumulator }

end MfmaInstruction

/-- The instruction that a configuration is lowered to. -/
inductive Instruction where
  | wmma (instruction : WmmaInstruction)
  | mfma (instruction : MfmaInstruction)
  deriving DecidableEq, Repr

namespace Instruction

/-- The target's instruction for operand types and a wave tile of `m` by `n`. -/
def select? (target : Target) (a b : ElementType) (m n : UInt32) : Option Instruction :=
  if target.hasWmma then .wmma <$> WmmaInstruction.select? a b target.waveSize m n
  else if target.hasMfma then .mfma <$> MfmaInstruction.select? target a b m n
  else none

def name : Instruction → String
  | .wmma instruction => instruction.name
  | .mfma instruction => instruction.name

/-- K elements that one invocation consumes. -/
def inputLength : Instruction → UInt32
  | .wmma instruction => instruction.inputLength
  | .mfma instruction => instruction.kBase

/-- Whether one step of the main loop holds enough K elements for an invocation.
The number of elements has to fit 32 bits. -/
def isFed (instruction : Instruction) (kPack kPerBlock : UInt32) : Checked Bool := do
  let elements ← Word.product UInt32.size kPerBlock.toNat kPack.toNat
  return instruction.inputLength.toNat ≤ elements

end Instruction

end KernelTuning
