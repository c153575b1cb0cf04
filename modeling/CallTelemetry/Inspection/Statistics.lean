import CallTelemetry.Inspection
import CallTelemetry.Statistics.Column
import CallTelemetry.Statistics.RowKey

/-! Row keys and columns of the statistics tables in JSON. -/
namespace CallTelemetry.Statistics

open Inspection

def RowKey.inspectMembers (k : RowKey) : List (String × Json) :=
  [("name", .text k.application), ("type", .ofInt16 k.type), ("slot", .int k.slot)]

def CalleeColumn.inspect (c : CalleeColumn) : Json :=
  .object [("type", .ofInt16 c.type), ("name", .text c.application), ("host", .text c.host),
    ("slot", .ofInt16 c.slot), ("agentId", .text c.agentId)]

def CallerColumn.inspect (c : CallerColumn) : Json :=
  .object [("type", .ofInt16 c.type), ("name", .text c.application), ("host", .text c.host),
    ("slot", .ofInt16 c.slot)]

def ResponseColumn.inspect (c : ResponseColumn) : Json :=
  .object [("slot", .ofInt16 c.slot), ("agentId", .text c.agentId)]

end CallTelemetry.Statistics
