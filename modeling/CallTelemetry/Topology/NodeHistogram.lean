import CallTelemetry.TimeWindow
import CallTelemetry.Topology.Links
import CallTelemetry.Topology.ResponseTime

/-! Response times of a node of a map. An application server is measured by the response times that
its agents report. Any other node is measured on links: a user on those that it starts, the rest on
those that reach them. Both sides may tell of the same calls, so inbound links count only where
there are no outbound ones. -/
namespace CallTelemetry.Topology

open Latency

structure NodeHistogram where
  application : Application
  total : Histogram
  /-- By agent for application servers, by host for other nodes. -/
  agents : SortedMap String Histogram
  times : Series
  agentTimes : SortedMap String Series
  deriving DecidableEq

/-- Whether an application server is broken down by agent. -/
inductive Detail where
  | simple
  | byAgent
  deriving DecidableEq

namespace NodeHistogram

def empty (a : Application) : NodeHistogram :=
  ⟨a, .empty a.type.scheme, .empty, .empty a.type.scheme, .empty⟩

/-- The links that a node without response times of its own is measured on. -/
def measuredLinks (a : Application) (d : Duplex) : List Link :=
  d.preferOutbound fun l => if a.type.isUser then l.outOf a else l.into a

/-- Merges parts of a link, by host or by time, into those of the links before it. A host or a time
that is new is classed as the calls on the link are. -/
def mergeParts [Ord κ] [Std.TransOrd κ] (k : Link) (m parts : SortedMap κ Histogram) :
    SortedMap κ Histogram :=
  parts.entries.foldl (fun m e => m.update e.1 (.empty k.edge.scheme) fun h => h.merge e.2) m

def ofLinks (a : Application) (d : Duplex) : NodeHistogram :=
  let links := measuredLinks a d
  { application := a
    total := links.foldl (fun h k => h.merge k.histogram) (.empty a.type.scheme)
    agents := links.foldl (fun m k => mergeParts k m k.targets) .empty
    times := ⟨a.type.scheme, links.foldl (fun m k => mergeParts k m k.series.slots) .empty⟩
    agentTimes := .empty }

def addSimple (w : TimeWindow) (n : NodeHistogram) (r : ResponseTime) : NodeHistogram :=
  let merged := r.merged
  { n with total := n.total.merge merged, times := n.times.mergeAt (w.refine r.time) merged }

def addAgent (time : Int) (n : NodeHistogram) (agent : String × Histogram) : NodeHistogram :=
  let scheme := n.application.type.scheme
  { n with
    total := n.total.merge agent.2
    agents := n.agents.update agent.1 (.empty scheme) fun h => h.merge agent.2
    times := n.times.mergeAt time agent.2
    agentTimes := n.agentTimes.update agent.1 (.empty scheme) fun s => s.mergeAt time agent.2 }

def addByAgent (w : TimeWindow) (n : NodeHistogram) (r : ResponseTime) : NodeHistogram :=
  r.agents.entries.foldl (addAgent (w.refine r.time)) n

def ofResponses (detail : Detail) (a : Application) (w : TimeWindow) (rs : List ResponseTime) :
    NodeHistogram :=
  match detail with
  | .simple => rs.foldl (addSimple w) (empty a)
  | .byAgent => rs.foldl (addByAgent w) (empty a)

/-- The histogram of a node. The response times are those of the node's application, and only an
application server asks for them. -/
def read [Monad m] (detail : Detail) (d : Duplex) (w : TimeWindow)
    (responses : Application → m (List ResponseTime)) (a : Application) : m NodeHistogram :=
  if a.type.isServer then do return ofResponses detail a w (← responses a) else return ofLinks a d

def unlessEmpty (name : String) (m : SortedMap String β) (toJson : β → Json) :
    List (String × Json) :=
  if m.isEmpty then [] else [(name, .object (m.entries.map fun e => (e.1, toJson e.2)))]

def toMembers (n : NodeHistogram) : List (String × Json) :=
  [("histogram", n.total.toJson)] ++ unlessEmpty "agentHistogram" n.agents Histogram.toJson ++
    [("timeSeriesHistogram", n.times.toJson)] ++
    unlessEmpty "agentTimeSeriesHistogram" n.agentTimes Series.toJson

end NodeHistogram

end CallTelemetry.Topology
