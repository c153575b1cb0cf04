import CallTelemetry.Topology.Agent
import CallTelemetry.Topology.NodeHistogram

/-! The servers of a node, grouped by host. Agents tell where they run; of what has no agents only
the hosts are known that its callers reached, and users have no servers. -/
namespace CallTelemetry.Topology

structure Server where
  host : String
  name : String
  type : ServiceType
  status : AgentStatus
  deriving DecidableEq

def Server.toJson (s : Server) : Json :=
  .object [("hostName", .text s.host), ("name", .text s.name), ("serviceType", .text s.type.name),
    ("status", .text s.status.name)]

def Server.ofAgent (a : Agent) (status : AgentStatus) : Server :=
  ⟨a.host, a.id, a.application.type, status⟩

abbrev ServerGroups := SortedMap String (List Server)

namespace ServerGroups

/-- The first server of a name stays the only one of its host. -/
def add (g : ServerGroups) (s : Server) : ServerGroups :=
  SortedMap.update g s.host [] fun servers =>
    if servers.any fun t => t.name == s.name then servers else servers ++ [s]

def ofServers (servers : List Server) : ServerGroups := servers.foldl add .empty

def servers (g : ServerGroups) : List Server := g.values.flatten

def toJson (g : ServerGroups) : Json :=
  .object (g.entries.map fun e => (e.1, .array (e.2.map Server.toJson)))

/-- The hosts that calls reached. -/
def ofLinks (a : Application) (d : Duplex) : ServerGroups :=
  ofServers ((d.preferOutbound fun l => l.into a).flatMap fun k =>
    k.targets.keys.map fun host => ⟨host, host, a.type, .unknown⟩)

/-- Agents with the status that they reported last. -/
def ofAgents (agents : List Agent) : ServerGroups :=
  ofServers (agents.map fun a => .ofAgent a a.status)

/-- The agents that a histogram knows of, all of them running; one that is not registered stands for
its own host. -/
def ofHistogram (a : Application) (agents : List Agent) (n : NodeHistogram) : ServerGroups :=
  ofServers (n.agents.keys.map fun id =>
    match agents.find? fun b => b.id == id with
    | some b => .ofAgent b .running
    | none => ⟨id, id, a.type, .running⟩)

end ServerGroups

/-- Where the servers of a node with agents are taken from. -/
inductive ServerSource where
  | registered
  | observed
  deriving DecidableEq

/-- The servers of a node, given the agents that are registered for its application. -/
def ServerSource.servers (source : ServerSource) (d : Duplex) (agents : Application → List Agent)
    (a : Application) (n : Option NodeHistogram) : ServerGroups :=
  if a.type.isUser then .empty
  else if a.type.isTerminal || a.type.isUnknown then .ofLinks a d
  else
    match source, n with
    | .registered, _ => .ofAgents (agents a)
    | .observed, some n => .ofHistogram a (agents a) n
    | .observed, none => .empty

end CallTelemetry.Topology
