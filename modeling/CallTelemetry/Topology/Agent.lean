import CallTelemetry.Application

/-! Agents as they report themselves when they start. -/
namespace CallTelemetry.Topology

inductive AgentStatus where
  | running
  | shutdown
  | unknown
  deriving DecidableEq

def AgentStatus.name : AgentStatus → String
  | running => "RUNNING"
  | shutdown => "SHUTDOWN"
  | unknown => "UNKNOWN"

def AgentStatus.ofName? (name : String) : Option AgentStatus :=
  [running, shutdown, unknown].find? fun s => s.name == name

structure Agent where
  application : Application
  id : String
  name : Option String
  host : String
  ip : String
  startTime : Int64
  status : AgentStatus
  deriving DecidableEq

def Agent.toJson (a : Agent) : Json :=
  .object [("applicationName", .text a.application.name), ("agentId", .text a.id),
    ("agentName", .textOrNull a.name), ("hostName", .text a.host), ("ip", .text a.ip),
    ("serviceType", .text a.application.type.name), ("startTimestamp", .ofInt64 a.startTime),
    ("status", .text a.status.name)]

/-- In the order of registration. -/
abbrev Registry := List Agent

namespace Registry

/-- Replaces what was registered under the same identifier. -/
def register (r : Registry) (a : Agent) : Registry := (r.filter fun b => b.id != a.id) ++ [a]

/-- The agents of an application that had started by `last`. -/
def select (r : Registry) (a : Application) (last : Int) : List Agent :=
  r.filter fun b => b.application == a && decide (b.startTime.toInt ≤ last)

end Registry

end CallTelemetry.Topology
