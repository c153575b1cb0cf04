import CallTelemetry.Topology.Servers

/-! Maps of applications and of the calls between them. A link that only one side tells of is kept;
where both sides tell of it, the caller's data counts. -/
namespace CallTelemetry.Topology

open Latency

/-- Which side of a link told of it. -/
inductive Sighting where
  | both
  | outbound
  | inbound
  deriving DecidableEq

def Sighting.name : Sighting → String
  | both => "both"
  | outbound => "out"
  | inbound => "in"

structure MapLink where
  sighting : Sighting
  histogram : Histogram
  series : Series
  deriving DecidableEq

namespace MapLink

def of (sighting : Sighting) (k : Link) : MapLink := ⟨sighting, k.histogram, k.series⟩

/-- From what either side tells. -/
def ofSides : Option Link → Option Link → Option MapLink
  | some k, some _ => some (.of .both k)
  | some k, none => some (.of .outbound k)
  | none, some k => some (.of .inbound k)
  | none, none => none

def totalCount (k : MapLink) : Int64 := k.histogram.totalCount

def toJson (e : Edge) (k : MapLink) : Json :=
  .object [("key", .text e.render), ("from", .text e.source.render), ("to", .text e.target.render),
    ("direction", .text k.sighting.name), ("totalCount", .ofInt64 k.totalCount),
    ("errorCount", .ofInt64 k.histogram.error), ("slowCount", .ofInt64 k.histogram.slowCount),
    ("histogram", k.histogram.toJson), ("timeSeriesHistogram", k.series.toJson)]

end MapLink

/-- What is known of a node beside its application. -/
structure Node where
  histogram : Option NodeHistogram
  servers : Option ServerGroups
  deriving DecidableEq

namespace Node

def bare : Node := ⟨none, none⟩

def toJson (a : Application) (n : Node) : Json :=
  .object ([("key", .text a.render)] ++ a.toMembers ++ [("isWas", .bool a.type.isServer)] ++
    ((n.histogram.map NodeHistogram.toMembers).getD []) ++
    (n.servers.map fun g => ("serverList", g.toJson)).toList)

end Node

structure ApplicationMap where
  range : TimeRange
  nodes : SortedMap Application Node
  links : SortedMap Edge MapLink
  deriving DecidableEq

namespace ApplicationMap

def ofSource (range : TimeRange) (a : Application) : ApplicationMap :=
  ⟨range, .ofList [(a, .bare)], .empty⟩

/-- One link for each edge that either side tells of, and one node for each end of an edge. -/
def ofDuplex (range : TimeRange) (d : Duplex) : ApplicationMap :=
  let edges := d.outbound.keys ++ d.inbound.keys
  { range
    nodes := .ofList (edges.flatMap fun e => [(e.source, .bare), (e.target, .bare)])
    links := .ofList (edges.filterMap fun e =>
      (MapLink.ofSides (d.outbound.link? e) (d.inbound.link? e)).map (e, ·)) }

def isEmpty (m : ApplicationMap) : Bool := m.nodes.isEmpty

/-- Replaces each node by what `f` makes of its application. -/
def decorate [Monad m] (f : Application → m Node) (map : ApplicationMap) : m ApplicationMap := do
  let nodes ← map.nodes.keys.mapM fun a => do return (a, ← f a)
  return { map with nodes := .ofList nodes }

def toJson (m : ApplicationMap) : Json :=
  .object [("range", m.range.toJson),
    ("nodeDataArray", .array (m.nodes.entries.map fun e => e.2.toJson e.1)),
    ("linkDataArray", .array (m.links.entries.map fun e => e.2.toJson e.1))]

end ApplicationMap

end CallTelemetry.Topology
