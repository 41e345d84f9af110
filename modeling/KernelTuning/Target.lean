import KernelTuning.ElementType
import KernelTuning.Text.Blank

/-!
# Targets

A target is a resolved GPU: its chip name, its hardware generation and the few
capacities that tuning depends on.  The generation decides which matrix
instructions and which atomic additions exist.
-/

namespace KernelTuning

/-- The hardware generations that tuning tells apart. -/
inductive Generation where
  | gcn
  | cdna1
  | cdna2
  | cdna3
  | rdna2
  | rdna3
  deriving DecidableEq, Inhabited, Repr

namespace Generation

/-- The generation of a chip, by the longest name stem that settles it. -/
def ofChip? (chip : List Char) : Option Generation :=
  if "gfx110".toList.isPrefixOf chip then some .rdna3
  else if "gfx103".toList.isPrefixOf chip then some .rdna2
  else if "gfx94".toList.isPrefixOf chip then some .cdna3
  else if chip = "gfx90a".toList then some .cdna2
  else if chip = "gfx908".toList then some .cdna1
  else if "gfx90".toList.isPrefixOf chip then some .gcn
  else if "gfx80".toList.isPrefixOf chip then some .gcn
  else none

/-- Lanes of a wave. -/
def waveSize : Generation → UInt32
  | .rdna2 | .rdna3 => 32
  | .gcn | .cdna1 | .cdna2 | .cdna3 => 64

end Generation

/-- A resolved GPU target. -/
structure Target where
  chip : String
  generation : Generation
  waveSize : UInt32
  computeUnits : UInt32
  /-- Local memory that one workgroup may allocate, in bytes. -/
  ldsBytes : UInt32
  deriving DecidableEq, Inhabited, Repr

namespace Target

/-- Local memory of one workgroup on every known chip, in bytes. -/
def workgroupLdsBytes : UInt32 := 64 * 1024

/-- Compute units of a chip; unlisted chips are taken to have 64. -/
def computeUnitsOfChip (chip : String) : UInt32 :=
  match chip with
  | "gfx906" => 60
  | "gfx908" => 120
  | "gfx90a" => 104
  | "gfx942" => 304
  | "gfx1030" => 80
  | "gfx1100" => 96
  | "gfx1101" => 60
  | "gfx1102" => 32
  | _ => 64

/-- A name of no supported target. -/
structure Unsupported where
  name : String
  deriving DecidableEq

namespace Unsupported

def message (unsupported : Unsupported) : String :=
  "unsupported target architecture '" ++ unsupported.name ++ "'"

end Unsupported

/-- The chip that a target name starts with; features follow after a colon. -/
def chipOfName (name : String) : List Char :=
  Text.trim (name.toList.takeWhile (· != ':'))

/-- The target with a given name. -/
def ofName (name : String) : Except Unsupported Target :=
  let chip := chipOfName name
  match Generation.ofChip? chip with
  | none => .error ⟨name⟩
  | some generation =>
      .ok
        { chip := String.ofList chip
          generation := generation
          waveSize := generation.waveSize
          computeUnits := computeUnitsOfChip (String.ofList chip)
          ldsBytes := workgroupLdsBytes }

/-- The target with its number of compute units replaced. -/
def withComputeUnits (target : Target) (computeUnits : UInt32) : Target :=
  { target with computeUnits := computeUnits }

/-- Whether the target has the wave matrix instructions. -/
def hasWmma (target : Target) : Bool :=
  target.generation == .rdna3

/-- Whether the target has the matrix fused-multiply-add instructions. -/
def hasMfma (target : Target) : Bool :=
  target.generation == .cdna1 || target.generation == .cdna2
    || target.generation == .cdna3

/-- Whether a matrix instruction exists for operands of this type. -/
def supportsMatrix (target : Target) (type : ElementType) : Bool :=
  if target.hasWmma then type == .f16 || type == .bf16 || type == .i8
  else if target.hasMfma then
    type == .f32 || type == .f16 || type == .bf16 || type == .i8
  else false

/-- Whether results of this type can be added atomically in global memory. -/
def supportsAtomicAdd (target : Target) : ElementType → Bool
  | .f32 => true
  | .f16 =>
      target.generation == .cdna2 || target.generation == .cdna3
        || target.generation == .rdna3
  | .bf16 | .i8 | .i32 => false

end Target

end KernelTuning
