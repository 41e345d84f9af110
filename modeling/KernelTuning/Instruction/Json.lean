import KernelTuning.Instruction.Basic
import KernelTuning.Problem.Json

/-!
# Matrix instructions as JSON

Instructions are only ever written.
-/

namespace KernelTuning

def WmmaInstruction.toJson (instruction : WmmaInstruction) : Json :=
  .object
    [("name", .string instruction.name),
      ("input_len", .integer instruction.inputLength.toNat),
      ("out_len", .integer instruction.outputLength.toNat),
      ("out_stride", .integer instruction.outputStride.toNat),
      ("m_repeats", .integer instruction.mRepeats.toNat),
      ("n_repeats", .integer instruction.nRepeats.toNat),
      ("arg_type", instruction.argument.toJson),
      ("ret_type", instruction.result.toJson)]

def MfmaInstruction.toJson (instruction : MfmaInstruction) : Json :=
  .object
    [("name", .string instruction.name),
      ("mn_per_xdl", .integer instruction.side.toNat),
      ("k_base", .integer instruction.kBase.toNat),
      ("m_repeats", .integer instruction.mRepeats.toNat),
      ("n_repeats", .integer instruction.nRepeats.toNat),
      ("arg_type", instruction.argument.toJson),
      ("ret_type", instruction.result.toJson)]

def Instruction.toJson : Instruction → Json
  | .wmma instruction => .object [("Wmma", instruction.toJson)]
  | .mfma instruction => .object [("Mfma", instruction.toJson)]

end KernelTuning
