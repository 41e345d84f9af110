import KernelTuning.Json.Printer
import KernelTuning.Json.Reader
import KernelTuning.Json.Schema
import KernelTuning.Table.Basic

/-!
# Tables as JSON

A table file is an object whose member `entries` maps each signature to its
configuration and time.
-/

namespace KernelTuning

namespace Timing

def toJson (timing : Timing) : Json :=
  .object [("config", .string timing.config), ("time", .float timing.time)]

def ofJson? (json : Json) : Option Timing := do
  let record ← json.record? ["config", "time"]
  return {
    config := ← record.required "config" Json.string?
    time := ← record.required "time" Json.binary64? }

end Timing

namespace Table

def toJson (table : Table) : Json :=
  .object
    [("entries",
      .object (table.rows.map fun (signature, timing) => (signature, timing.toJson)))]

/-- The rows of an object; of several members with one key, the last one counts. -/
def rowsOfJson? : Json → Option Rows
  | .object members => do
      let rows ← members.mapM fun (signature, json) => do
        let timing ← Timing.ofJson? json
        return (signature, timing)
      return rows.foldl (fun rows (signature, timing) => rows.place signature timing) []
  | _ => none

def ofJson? (json : Json) : Option Table := do
  let record ← json.record? ["entries"]
  let rows ← record.required "entries" rowsOfJson?
  return ofRows rows

/-- The table that a file's text describes. -/
def parse? (text : String) : Option Table :=
  Json.parse? text >>= ofJson?

/-- The text of a table file. -/
def text (table : Table) : String :=
  table.toJson.pretty

end Table

end KernelTuning
