import CallTelemetry.Alarm.Checker
import CallTelemetry.Topology.Links
import CallTelemetry.Topology.ResponseTime

/-! The calls that alarms are judged by, counted over a window of time. -/
namespace CallTelemetry.Alarm

open CallTelemetry.Topology

structure CallCount where
  total : Int64
  slow : Int64
  error : Int64
  deriving DecidableEq

namespace CallCount

def zero : CallCount := ⟨0, 0, 0⟩

def add (c : CallCount) (h : Latency.Histogram) : CallCount :=
  ⟨c.total + h.totalCount, c.slow + h.slowCount, c.error + h.error⟩

/-- The part of all calls in percent, rounded toward zero; of no calls it is zero. -/
def percent (c : CallCount) (part : Int64) : Int64 :=
  if c.total = 0 then 0 else part * 100 / c.total

def value (c : CallCount) : Measure → Int64
  | .slowCount => c.slow
  | .slowRate => c.percent c.slow
  | .errorCount => c.error
  | .errorRate => c.percent c.error
  | .totalCount => c.total

end CallCount

inductive Evidence where
  | responses (count : CallCount)
  | callees (counts : SortedMap String CallCount)
  deriving DecidableEq

namespace Evidence

def kind : Evidence → DataKind
  | responses _ => .responseTime
  | callees _ => .callerStatistics

/-- What is known before anything is read. -/
def unread : DataKind → Evidence
  | .responseTime => responses .zero
  | .callerStatistics => callees .empty

/-- All agents at all times together. -/
def ofResponses (rs : List ResponseTime) : Evidence :=
  responses ((rs.flatMap fun r => r.agents.values).foldl CallCount.add .zero)

/-- By the name of the callee, whatever its type. -/
def ofLinks (l : Links) : Evidence :=
  callees (l.links.foldl
    (fun m k => m.update k.edge.target.name .zero fun c => c.add k.histogram) .empty)

end Evidence

end CallTelemetry.Alarm
