import CallTelemetry.Alarm.Check
import CallTelemetry.Pending.Cell
import CallTelemetry.Pending.Report
import CallTelemetry.Topology.ApplicationMap

/-! Values of the library in JSON, in full, for whoever looks into a running monitor. A histogram
shows its scheme and all of its slots, in the order of `Slot.all`. -/
namespace CallTelemetry

open Latency CallTelemetry.Topology

namespace Inspection

def list (f : α → Json) (l : List α) : Json := .array (l.map f)

/-- A member for each entry of a map. -/
def byName (f : β → Json) (m : SortedMap String β) : Json :=
  .object (m.entries.map fun e => (e.1, f e.2))

def bytes (b : Bytes) : Json := .text b.toHex

end Inspection

open Inspection

namespace Latency

def Histogram.slots (h : Histogram) : Json := list (fun slot => .ofInt64 (h.get slot)) Slot.all

def Histogram.inspectMembers (h : Histogram) : List (String × Json) :=
  [("schema", .ofInt32 h.scheme.typeCode), ("slots", h.slots)]

def Histogram.inspect (h : Histogram) : Json := .object h.inspectMembers

def Histogram.inspectAt (h : Histogram) (time : Int) : Json :=
  .object (h.inspectMembers ++ [("timestamp", .int time)])

def Series.inspect (s : Series) : Json := list (fun e => e.2.inspectAt e.1) s.slots.entries

end Latency

namespace Topology

def Traffic.inspect (t : Traffic) : Json :=
  list (fun e => .object [("source", .text e.1.source.render), ("target", .text e.1.target.render),
    ("total", .ofInt64 e.2.totalCount), ("histogram", e.2.total.inspect), ("times", e.2.inspect)])
    t.entries

def Link.inspect (k : Link) : Json :=
  .object [("key", .text k.edge.render), ("total", .ofInt64 k.totalCount),
    ("histogram", k.histogram.inspect), ("times", k.series.inspect),
    ("targets", byName Histogram.inspect k.targets), ("calls", k.traffic.inspect)]

def Links.inspect (l : Links) : Json := list Link.inspect l.links

def Duplex.inspect (d : Duplex) : Json :=
  .object [("total", .int d.size), ("empty", .bool d.isEmpty), ("out", d.outbound.inspect),
    ("in", d.inbound.inspect)]

def ResponseTime.inspect (r : ResponseTime) : Json :=
  .object [("application", .text r.application.render), ("timestamp", .int r.time),
    ("total", .ofInt64 r.totalCount), ("merged", r.merged.inspectAt r.time),
    ("agents", byName (fun h => h.inspectAt r.time) r.agents),
    ("agentIds", list .text r.agents.keys)]

def NodeHistogram.inspect (n : NodeHistogram) : Json :=
  .object [("application", .text n.application.render), ("total", .ofInt64 n.total.totalCount),
    ("merged", n.total.inspect), ("agents", byName Histogram.inspect n.agents),
    ("times", n.times.inspect), ("agentTimes", byName Series.inspect n.agentTimes)]

def Node.inspect (m : ApplicationMap) (a : Application) (n : Node) : Json :=
  .object [("application", .text a.render), ("found", .bool (m.nodes.contains a)),
    ("histogram", .orNull NodeHistogram.inspect n.histogram),
    ("servers", .orNull (fun g => .int g.servers.length) n.servers)]

def MapLink.inspect (m : ApplicationMap) (e : Edge) (k : MapLink) : Json :=
  .object [("from", .text e.source.render), ("to", .text e.target.render),
    ("found", .bool (m.links.contains e)), ("direction", .text k.sighting.name),
    ("total", .ofInt64 k.totalCount), ("histogram", k.histogram.inspect), ("times", k.series.inspect)]

/-- Beside the form that is drawn. -/
def ApplicationMap.inspect (m : ApplicationMap) : Json :=
  .object [("nodeCount", .int m.nodes.size), ("linkCount", .int m.links.size),
    ("empty", .bool m.isEmpty), ("range", m.range.toJson), ("json", m.toJson),
    ("nodes", list (fun e => e.2.inspect m e.1) m.nodes.entries),
    ("links", list (fun e => e.2.inspect m e.1) m.links.entries)]

end Topology

/-- A cell of eight bytes shows the number that it counts. -/
def Row.inspect (r : Row) : Json :=
  .object [("key", bytes r.key), ("cells", list (fun c => .object [("family", bytes c.1.family),
    ("qualifier", bytes c.1.qualifier), ("value", bytes c.2),
    ("i64", .orNull .ofInt64 (Bytes.toCounter? c.2))]) r.cells.entries)]

def Increment.inspect (i : Increment) : Json :=
  .object [("row", bytes i.row), ("family", bytes i.family),
    ("columns", list (fun c => .array [bytes c.1, .ofInt64 c.2]) i.columns)]

/-- Drained cells with what each holds, by table, family, row and column. -/
def Pending.inspectDrained (cells : List (Cell × Int64)) : Json :=
  let order : Cell × Int64 → Cell × Int64 → Ordering :=
    compareLex (compareOn (·.1.table)) (compareLex (compareOn (·.1.family))
      (compareLex (compareOn (·.1.row)) (compareOn (·.1.column))))
  list (fun e => .array [.text e.1.table.text, .text (e.1.family.toText?.getD ""), bytes e.1.row,
    bytes e.1.column, .ofInt64 e.2]) (cells.mergeSort fun a b => (order a b).isLE)

def Increment.inspectTables (tables : List (TableName × List Increment)) : Json :=
  .object (tables.map fun e => (e.1.text, list Increment.inspect e.2))

def Pending.Report.inspect (name : String) (r : Report) : Json :=
  .object [("name", .text name), ("flushAll", .int r.flushAll),
    ("incrementReject", .int r.incrementReject), ("flushFailure", .int r.flushFailure),
    ("restoreReject", .int r.restoreReject), ("syncTimeout", .int r.syncTimeout),
    ("flushed", .bool r.flushed)]

def Pending.Reports.inspect (r : Reports) : Json := list (fun e => e.2.inspect e.1) r.entries

namespace Alarm

def Checker.inspect (c : Checker) : Json :=
  .object [("name", .text c.name), ("display", .text c.name), ("collector", .text c.kind.name),
    ("rate", .bool c.measure.isRate), ("toCallee", .bool c.toCallee), ("unit", .text c.unit),
    ("json", c.toJson)]

def inspect (a : Alarm) : Json :=
  .object [("category", .text a.checker.name), ("rule", a.rule.toJson),
    ("detected", .bool a.detected), ("value", .orNull .ofInt64 a.value),
    ("valueText", .text a.valueText), ("sms", .text a.smsMessage), ("email", .text a.emailMessage)]

end Alarm

def ServiceType.inspect (t : ServiceType) : Json :=
  .object [("code", .ofInt16 t.code), ("name", .text t.name), ("display", .text t.name),
    ("debug", .text t.describe), ("schema", .ofInt32 t.scheme.typeCode),
    ("terminal", .bool t.isTerminal), ("queue", .bool t.isQueue),
    ("recordStatistics", .bool t.recordsStatistics),
    ("includeDestinationId", .bool t.includesDestinationId), ("was", .bool t.isServer),
    ("rpcClient", .bool t.isRpcClient), ("user", .bool t.isUser), ("unknown", .bool t.isUnknown),
    ("json", .text t.name)]

end CallTelemetry
