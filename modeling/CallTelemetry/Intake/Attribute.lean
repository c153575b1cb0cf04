import CallTelemetry.Identifier
import CallTelemetry.Json
import CallTelemetry.Wire.Message

/-! What is known of the agent at the other end of a stream. -/
namespace CallTelemetry.Intake

structure Attribute where
  agentId : String
  agentName : Option String
  applicationName : String
  agentStartTime : Int64
  acceptedTime : Int64
  deriving DecidableEq

inductive HandshakeError where
  | invalidAgentId (id : String)
  | invalidApplicationName (name : String)
  | alreadyCompleted
  deriving DecidableEq

def HandshakeError.detail : HandshakeError → String
  | .invalidAgentId id => s!"invalid agent id '{id}'"
  | .invalidApplicationName name => s!"invalid application name '{name}'"
  | .alreadyCompleted => "handshake already completed"

def nonEmpty (s : String) : Option String := if s.isEmpty then none else some s

namespace Attribute

/-- Agents are known by valid identifiers only. -/
def ofHandshake (m : Wire.Handshake) (acceptedTime : Int64) : Except HandshakeError Attribute :=
  if !Identifier.valid m.agentId then .error (.invalidAgentId m.agentId)
  else if !Identifier.valid m.applicationName then
    .error (.invalidApplicationName m.applicationName)
  else .ok ⟨m.agentId, nonEmpty m.agentName, m.applicationName, m.agentStartTime, acceptedTime⟩

def acceptedAt (a : Attribute) (time : Int64) : Attribute := { a with acceptedTime := time }

def toJson (a : Attribute) : Json :=
  .object [("agentId", .text a.agentId), ("agentName", .textOrNull a.agentName),
    ("applicationName", .text a.applicationName), ("agentStartTime", .ofInt64 a.agentStartTime),
    ("acceptedTime", .ofInt64 a.acceptedTime)]

end Attribute

end CallTelemetry.Intake
