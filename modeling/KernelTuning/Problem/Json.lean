import KernelTuning.Json.Printer
import KernelTuning.Json.Reader
import KernelTuning.Json.Schema
import KernelTuning.Problem.Basic

/-!
# Problems as JSON

The JSON form of a problem and of its parts.  Defaults may be left out when a
problem is read; on writing, only an absent convolution and an absent configuration
are.
-/

namespace KernelTuning

namespace ElementType

def toJson (type : ElementType) : Json :=
  .string type.name

def ofJson? : Json → Option ElementType :=
  Json.choice? (all.map fun type => (type.name, type))

end ElementType

namespace Generation

/-- The generations under their names. -/
def names : List (String × Generation) :=
  [("Gcn", .gcn), ("Cdna1", .cdna1), ("Cdna2", .cdna2), ("Cdna3", .cdna3),
    ("Rdna2", .rdna2), ("Rdna3", .rdna3)]

def name : Generation → String
  | .gcn => "Gcn"
  | .cdna1 => "Cdna1"
  | .cdna2 => "Cdna2"
  | .cdna3 => "Cdna3"
  | .rdna2 => "Rdna2"
  | .rdna3 => "Rdna3"

def toJson (generation : Generation) : Json :=
  .string generation.name

def ofJson? : Json → Option Generation :=
  Json.choice? names

end Generation

namespace Target

def toJson (target : Target) : Json :=
  .object
    [("name", .string target.chip),
      ("family", target.generation.toJson),
      ("wave_size", .integer target.waveSize.toNat),
      ("num_cu", .integer target.computeUnits.toNat),
      ("lds_bytes", .integer target.ldsBytes.toNat)]

def ofJson? (json : Json) : Option Target := do
  let record ← json.record? ["name", "family", "wave_size", "num_cu", "lds_bytes"]
  return {
    chip := ← record.required "name" Json.string?
    generation := ← record.required "family" Generation.ofJson?
    waveSize := ← record.required "wave_size" Json.uint32?
    computeUnits := ← record.required "num_cu" Json.uint32?
    ldsBytes := ← record.required "lds_bytes" Json.uint32? }

end Target

namespace Operation

def toJson : Operation → Json
  | .gemm => .string "gemm"
  | .convolution => .string "conv_fwd"

def ofJson? : Json → Option Operation :=
  Json.choice? [("gemm", .gemm), ("conv_fwd", .convolution)]

end Operation

namespace Epilogue

def toJson (epilogue : Epilogue) : Json :=
  .string epilogue.name

def ofJson? : Json → Option Epilogue :=
  Json.choice?
    [("scale", .scale), ("negate", .negate), ("bias_add", .biasAdd), ("relu", .relu),
      ("convert", .convert)]

end Epilogue

namespace Shape

def toJson (shape : Shape) : Json :=
  .object
    [("g", .integer shape.g.toNat),
      ("m", .integer shape.m.toNat),
      ("n", .integer shape.n.toNat),
      ("k", .integer shape.k.toNat)]

def ofJson? (json : Json) : Option Shape := do
  let record ← json.record? ["g", "m", "n", "k"]
  return {
    g := ← record.required "g" Json.uint64?
    m := ← record.required "m" Json.uint64?
    n := ← record.required "n" Json.uint64?
    k := ← record.required "k" Json.uint64? }

end Shape

namespace Convolution

def toJson (convolution : Convolution) : Json :=
  .object
    [("batch", .integer convolution.batch.toNat),
      ("in_channels", .integer convolution.inChannels.toNat),
      ("out_channels", .integer convolution.outChannels.toNat),
      ("in_h", .integer convolution.inHeight.toNat),
      ("in_w", .integer convolution.inWidth.toNat),
      ("filter_h", .integer convolution.filterHeight.toNat),
      ("filter_w", .integer convolution.filterWidth.toNat),
      ("stride_h", .integer convolution.strideHeight.toNat),
      ("stride_w", .integer convolution.strideWidth.toNat),
      ("pad_h", .integer convolution.padHeight.toNat),
      ("pad_w", .integer convolution.padWidth.toNat),
      ("dilation_h", .integer convolution.dilationHeight.toNat),
      ("dilation_w", .integer convolution.dilationWidth.toNat),
      ("groups", .integer convolution.groups.toNat)]

def ofJson? (json : Json) : Option Convolution := do
  let record ← json.record?
    ["batch", "in_channels", "out_channels", "in_h", "in_w", "filter_h", "filter_w",
      "stride_h", "stride_w", "pad_h", "pad_w", "dilation_h", "dilation_w", "groups"]
  return {
    batch := ← record.required "batch" Json.uint64?
    inChannels := ← record.required "in_channels" Json.uint64?
    outChannels := ← record.required "out_channels" Json.uint64?
    inHeight := ← record.required "in_h" Json.uint64?
    inWidth := ← record.required "in_w" Json.uint64?
    filterHeight := ← record.required "filter_h" Json.uint64?
    filterWidth := ← record.required "filter_w" Json.uint64?
    strideHeight := ← record.optional "stride_h" 1 Json.uint64?
    strideWidth := ← record.optional "stride_w" 1 Json.uint64?
    padHeight := ← record.optional "pad_h" 0 Json.uint64?
    padWidth := ← record.optional "pad_w" 0 Json.uint64?
    dilationHeight := ← record.optional "dilation_h" 1 Json.uint64?
    dilationWidth := ← record.optional "dilation_w" 1 Json.uint64?
    groups := ← record.optional "groups" 1 Json.uint64? }

end Convolution

namespace InitialValue

def toJson : InitialValue → Json
  | .int value => .object [("int", .integer value.toInt)]
  | .float value => .object [("float", .float value)]

def ofJson? : Json → Option InitialValue
  | .object [("int", value)] => InitialValue.int <$> value.int64?
  | .object [("float", value)] => InitialValue.float <$> value.binary64?
  | _ => none

end InitialValue

namespace Prefill

def toJson (prefill : Prefill) : Json :=
  .object
    [("arg_index", .integer prefill.argument.toNat),
      ("init_value", prefill.value.toJson)]

def ofJson? (json : Json) : Option Prefill := do
  let record ← json.record? ["arg_index", "init_value"]
  return {
    argument := ← record.required "arg_index" Json.uint64?
    value := ← record.required "init_value" InitialValue.ofJson? }

end Prefill

namespace AuxiliaryBuffer

def toJson (buffer : AuxiliaryBuffer) : Json :=
  .object
    [("size_bytes", .integer buffer.bytes.toNat),
      ("init_value", buffer.value.toJson)]

def ofJson? (json : Json) : Option AuxiliaryBuffer := do
  let record ← json.record? ["size_bytes", "init_value"]
  return {
    bytes := ← record.required "size_bytes" Json.uint64?
    value := ← record.required "init_value" InitialValue.ofJson? }

end AuxiliaryBuffer

namespace Problem

/-- The field names of a problem, in the order in which they are written. -/
def fieldNames : List String :=
  ["op", "shape", "conv", "a_type", "b_type", "out_type", "transpose_a", "transpose_b",
    "arch", "epilogue", "prefill", "aux_buffers", "perf_config"]

def toJson (problem : Problem) : Json :=
  .object <|
    [("op", problem.operation.toJson),
      ("shape", problem.shape.toJson)]
    ++ (problem.convolution.map fun convolution => ("conv", convolution.toJson)).toList
    ++ [("a_type", problem.aType.toJson),
      ("b_type", problem.bType.toJson),
      ("out_type", problem.outType.toJson),
      ("transpose_a", .boolean problem.transposeA),
      ("transpose_b", .boolean problem.transposeB),
      ("arch", problem.target.toJson),
      ("epilogue", .array (problem.epilogue.map Epilogue.toJson)),
      ("prefill", .array (problem.prefill.map Prefill.toJson)),
      ("aux_buffers", .array (problem.auxiliaryBuffers.map AuxiliaryBuffer.toJson))]
    ++ (problem.config.map fun config => ("perf_config", Json.string config)).toList

def ofJson? (json : Json) : Option Problem := do
  let record ← json.record? fieldNames
  return {
    operation := ← record.required "op" Operation.ofJson?
    shape := ← record.required "shape" Shape.ofJson?
    convolution := ← record.optional "conv" none (Json.nullable? Convolution.ofJson?)
    aType := ← record.required "a_type" ElementType.ofJson?
    bType := ← record.required "b_type" ElementType.ofJson?
    outType := ← record.required "out_type" ElementType.ofJson?
    transposeA := ← record.optional "transpose_a" false Json.boolean?
    transposeB := ← record.optional "transpose_b" false Json.boolean?
    target := ← record.required "arch" Target.ofJson?
    epilogue := ← record.optional "epilogue" [] (Json.list? Epilogue.ofJson?)
    prefill := ← record.optional "prefill" [] (Json.list? Prefill.ofJson?)
    auxiliaryBuffers := ←
      record.optional "aux_buffers" [] (Json.list? AuxiliaryBuffer.ofJson?)
    config := ← record.optional "perf_config" none (Json.nullable? Json.string?) }

/-- The problem that a JSON text describes. -/
def parse? (text : String) : Option Problem :=
  Json.parse? text >>= ofJson?

end Problem

end KernelTuning
