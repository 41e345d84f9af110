import KernelTuning.Table.Json
import KernelTuning.Tuner

/-!
# Tuning outcomes as JSON

Outcomes are only ever written.
-/

namespace KernelTuning.Outcome

def toJson (outcome : Outcome) : Json :=
  .object
    [("signature", .string outcome.signature),
      ("best", (outcome.best.map Timing.toJson).getD .null),
      ("evaluated", .integer outcome.evaluated),
      ("rejected", .integer outcome.rejected),
      ("improved", .integer outcome.improved)]

end KernelTuning.Outcome
