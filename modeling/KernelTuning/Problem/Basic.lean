import KernelTuning.Binary64
import KernelTuning.Convolution
import KernelTuning.ElementType
import KernelTuning.Target

/-!
# Problems

A problem is one kernel that a host compiler wants tuned: the shape and types of a
matrix product or convolution, the target, the elementwise operations fused behind
it, and what has to be done to buffers before a launch.  Tuning writes only the
chosen configuration and the prefill request of the result argument.
-/

namespace KernelTuning

/-- The kind of kernel. -/
inductive Operation where
  | gemm
  | convolution
  deriving DecidableEq, Inhabited, Repr

namespace Operation

def name : Operation → String
  | .gemm => "gemm"
  | .convolution => "conv"

end Operation

/-- An elementwise operation fused behind the product. -/
inductive Epilogue where
  | scale
  | negate
  | biasAdd
  | relu
  | convert
  deriving DecidableEq, Inhabited, Repr

namespace Epilogue

def name : Epilogue → String
  | .scale => "scale"
  | .negate => "negate"
  | .biasAdd => "bias_add"
  | .relu => "relu"
  | .convert => "convert"

/-- Whether the operation may be applied to the parts of a sum. -/
def distributesOverAddition : Epilogue → Bool
  | .scale | .negate => true
  | .biasAdd | .relu | .convert => false

end Epilogue

/-- A value that a buffer is filled with. -/
inductive InitialValue where
  | int (value : Int64)
  | float (value : Binary64)
  deriving DecidableEq, Inhabited, Repr

namespace InitialValue

/-- The zero of an element type. -/
def zeroOf (type : ElementType) : InitialValue :=
  if type.isInteger then .int 0 else .float .zero

end InitialValue

/-- A kernel argument that is filled before a launch. -/
structure Prefill where
  argument : UInt64
  value : InitialValue
  deriving DecidableEq, Inhabited, Repr

/-- A buffer that is allocated and filled beside the kernel's arguments. -/
structure AuxiliaryBuffer where
  bytes : UInt64
  value : InitialValue
  deriving DecidableEq, Inhabited, Repr

/-- One kernel to tune. -/
structure Problem where
  operation : Operation
  shape : Shape
  convolution : Option Convolution := none
  aType : ElementType
  bType : ElementType
  outType : ElementType
  transposeA : Bool := false
  transposeB : Bool := false
  target : Target
  epilogue : List Epilogue := []
  prefill : List Prefill := []
  auxiliaryBuffers : List AuxiliaryBuffer := []
  config : Option String := none
  deriving DecidableEq, Inhabited

namespace Problem

/-- What keeps a problem from being tuned at all. -/
inductive Fault where
  | emptyShape (shape : Shape)
  | noComputeUnits
  | convolution (fault : Convolution.Fault)
  | shapeMismatch
  deriving DecidableEq, Repr

namespace Fault

def message : Fault → String
  | .emptyShape shape =>
      s!"problem dimensions must be positive (g={shape.g}, m={shape.m}, n={shape.n}, k={shape.k})"
  | .noComputeUnits => "target reports zero compute units"
  | .convolution fault => fault.message
  | .shapeMismatch => "convolution descriptor disagrees with the GEMM shape"

end Fault

/-- A matrix product with operands and result of one type. -/
def gemm (shape : Shape) (type : ElementType) (target : Target) : Problem :=
  { operation := .gemm
    shape := shape
    aType := type
    bType := type
    outType := type
    target := target }

/-- A forward convolution, with the shape of its matrix product. -/
def ofConvolution
    (convolution : Convolution) (type : ElementType) (target : Target) :
    Except Convolution.Fault Problem := do
  let shape ← convolution.gemmShape
  return { gemm shape type target with
    operation := .convolution
    convolution := some convolution }

/-- The convolution's own shape is the problem's, if there is a convolution. -/
def checkConvolution (problem : Problem) : Except Fault Unit :=
  match problem.convolution with
  | none => .ok ()
  | some convolution =>
      match convolution.gemmShape with
      | .error fault => .error (.convolution fault)
      | .ok shape => if shape = problem.shape then .ok () else .error .shapeMismatch

/-- Checks that the host described something that can be tuned. -/
def validate (problem : Problem) : Except Fault Unit :=
  let shape := problem.shape
  if shape.g = 0 ∨ shape.m = 0 ∨ shape.n = 0 ∨ shape.k = 0 then
    .error (.emptyShape shape)
  else if problem.target.computeUnits = 0 then .error .noComputeUnits
  else problem.checkConvolution

/-- Whether both operands can be fed to a matrix instruction of the target. -/
def usesMatrix (problem : Problem) : Bool :=
  problem.aType == problem.bType && problem.target.supportsMatrix problem.aType

/-- The index of the kernel argument that holds the result. -/
def resultArgument : UInt64 := 2

/-- Replaces the prefill request of the result argument.  Only a new request
brings the list into the order of the arguments; equal ones keep their order. -/
def setResultPrefill (problem : Problem) (value : Option InitialValue) : Problem :=
  let others := problem.prefill.filter (·.argument != resultArgument)
  match value with
  | none => { problem with prefill := others }
  | some value =>
      let request : Prefill := ⟨resultArgument, value⟩
      { problem with
        prefill := (others ++ [request]).mergeSort
          fun first second => first.argument ≤ second.argument }

/-- Whether every fused operation may be applied to the parts of a sum. -/
def epilogueDistributes (problem : Problem) : Bool :=
  problem.epilogue.all Epilogue.distributesOverAddition

end Problem

end KernelTuning
