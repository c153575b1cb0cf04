import CallTelemetry.Latency.Series
import CallTelemetry.Topology.Edge

/-! Calls between applications, as the statistics tables tell of them. A link has the calls of every
agent of its source to every host of its target apart. -/
namespace CallTelemetry.Topology

open Latency

/-- Calls by the agent that made them and the host that took them. -/
abbrev Traffic := SortedMap Edge Series

namespace Traffic

def add (t : Traffic) (ends : Edge) (time : Int) (slot : Slot) (count : Int64) : Traffic :=
  SortedMap.update t ends (.empty ends.scheme) fun s => s.add time slot count

def addTimes (t : Traffic) (ends : Edge) (times : List (Int × Histogram)) : Traffic :=
  SortedMap.update t ends (.empty ends.scheme) fun s => s.mergeAll times

def merge (t other : Traffic) : Traffic :=
  other.entries.foldl (fun t e => t.addTimes e.1 e.2.slots.entries) t

/-- The calls of all agents to all hosts, by time. -/
def series (t : Traffic) (scheme : Scheme) : Series := t.values.foldl Series.merge (.empty scheme)

def histogram (t : Traffic) (scheme : Scheme) : Histogram :=
  t.values.foldl (fun h s => h.merge s.total) (.empty scheme)

def totalCount (t : Traffic) : Int64 := t.values.foldr (·.totalCount + ·) 0

end Traffic

structure Link where
  edge : Edge
  traffic : Traffic
  deriving DecidableEq

namespace Link

def histogram (l : Link) : Histogram := l.traffic.histogram l.edge.scheme

def series (l : Link) : Series := l.traffic.series l.edge.scheme

def totalCount (l : Link) : Int64 := l.traffic.totalCount

/-- The calls that each host took. -/
def targets (l : Link) : SortedMap String Histogram :=
  l.traffic.entries.foldl
    (fun m e => m.update e.1.target.name (.empty l.edge.scheme) fun h => h.merge e.2.total) .empty

end Link

/-- What one cell of a statistics table tells of a link. -/
structure Tally where
  edge : Edge
  agent : String
  host : String
  time : Int
  code : Int16
  count : Int64
  deriving DecidableEq

namespace Tally

def slot? (t : Tally) : Option Slot := t.edge.scheme.slotOfCode? t.code

/-- Agent and host, under the types of the applications they belong to. -/
def ends (t : Tally) : Edge := ⟨⟨t.agent, t.edge.source.type⟩, ⟨t.host, t.edge.target.type⟩⟩

/-- A code that the scheme does not have counts nowhere. -/
def addTo (t : Tally) (traffic : Traffic) : Traffic :=
  match t.slot? with
  | some slot => traffic.add t.ends t.time slot t.count
  | none => traffic

end Tally

abbrev Links := SortedMap Edge Traffic

namespace Links

/-- Answers whether the tally was counted; the link is there afterwards in any case. -/
def add (l : Links) (t : Tally) : Bool × Links :=
  (t.slot?.isSome, SortedMap.update l t.edge .empty t.addTo)

def addAll (l : Links) (tallies : List Tally) : Links :=
  tallies.foldl (fun l t => (l.add t).2) l

def links (l : Links) : List Link := l.entries.map fun e => ⟨e.1, e.2⟩

def link? (l : Links) (e : Edge) : Option Link := (SortedMap.get? l e).map (⟨e, ·⟩)

/-- Joins a link with what is known of its edge. -/
def join (l : Links) (k : Link) : Links :=
  SortedMap.alter l k.edge fun
    | some traffic => some (traffic.merge k.traffic)
    | none => some k.traffic

def merge (l other : Links) : Links := other.links.foldl join l

def into (l : Links) (a : Application) : List Link := l.links.filter fun k => k.edge.target == a

def outOf (l : Links) (a : Application) : List Link := l.links.filter fun k => k.edge.source == a

/-- The links with an application server at both ends. -/
def betweenServers (l : Links) : Links :=
  SortedMap.filter l fun e _ => e.source.type.isServer && e.target.type.isServer

end Links

/-- Links as their callers tell of them, and links as their callees do. -/
structure Duplex where
  outbound : Links
  inbound : Links
  deriving DecidableEq

namespace Duplex

def empty : Duplex := ⟨.empty, .empty⟩

def addOutbound (d : Duplex) (l : Links) : Duplex := { d with outbound := d.outbound.merge l }

def addInbound (d : Duplex) (l : Links) : Duplex := { d with inbound := d.inbound.merge l }

/-- A link that both sides tell of counts twice. -/
def size (d : Duplex) : Nat := d.outbound.size + d.inbound.size

def isEmpty (d : Duplex) : Bool := d.outbound.isEmpty && d.inbound.isEmpty

/-- The outbound links, or the inbound ones where there is none. -/
def preferOutbound (d : Duplex) (pick : Links → List Link) : List Link :=
  match pick d.outbound with
  | [] => pick d.inbound
  | links => links

end Duplex

end CallTelemetry.Topology
