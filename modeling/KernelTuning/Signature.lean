import KernelTuning.Problem.Basic

/-!
# Signatures

The signature of a problem is the text under which its best configuration is
recorded.  It consists of the chip, the number of compute units and the kernel,
each but the last followed by a tab, and of flags for everything else that
distinguishes one kernel from another.  What tuning itself writes into a problem
is not part of it.
-/

namespace KernelTuning.Problem

/-- The text of a truth value. -/
def flagText (flag : Bool) : String :=
  if flag then "true" else "false"

/-- The flags of every signature. -/
def commonFlags (problem : Problem) : List (String × String) :=
  [("t", problem.aType.name), ("out_datatype", problem.outType.name),
    ("transA", flagText problem.transposeA), ("transB", flagText problem.transposeB),
    ("g", toString problem.shape.g), ("m", toString problem.shape.m),
    ("n", toString problem.shape.n), ("k", toString problem.shape.k)]

/-- The second operand's type, where it differs from the first one's. -/
def operandFlags (problem : Problem) : List (String × String) :=
  if problem.bType = problem.aType then [] else [("t_b", problem.bType.name)]

/-- The parameters of a convolution. -/
def convolutionFlags (problem : Problem) : List (String × String) :=
  match problem.convolution with
  | none => []
  | some convolution => convolution.flags

/-- The fused operations, if there are any. -/
def epilogueFlags (problem : Problem) : List (String × String) :=
  if problem.epilogue.isEmpty then []
  else [("fusion", ",".intercalate (problem.epilogue.map Epilogue.name))]

/-- Every flag of a signature, in order. -/
def flags (problem : Problem) : List (String × String) :=
  problem.commonFlags ++ problem.operandFlags ++ problem.convolutionFlags
    ++ problem.epilogueFlags

/-- The text that distinguishes a problem from all others. -/
def signatureText (problem : Problem) : String :=
  String.ofList
    (problem.target.chip.toList
      ++ '\t' :: (toString problem.target.computeUnits).toList
      ++ '\t' :: problem.operation.name.toList
      ++ Text.writeFlags problem.flags)

/-- A problem that has no signature. -/
structure Unsigned where
  fault : Fault
  deriving DecidableEq

namespace Unsigned

/-- The report of a missing signature, the outermost context first. -/
def chain (unsigned : Unsigned) : List String :=
  ["cannot derive a problem signature", unsigned.fault.message]

end Unsigned

/-- The signature of a problem that can be tuned. -/
def signature (problem : Problem) : Except Unsigned String :=
  match problem.validate with
  | .error fault => .error ⟨fault⟩
  | .ok () => .ok problem.signatureText

end KernelTuning.Problem
