import CallTelemetry.Application
import CallTelemetry.Latency.Histogram
import CallTelemetry.SortedMap

/-! Response times of one application at one time, by agent. -/
namespace CallTelemetry.Topology

open Latency

structure ResponseTime where
  application : Application
  time : Int
  agents : SortedMap String Histogram
  deriving DecidableEq

namespace ResponseTime

def empty (a : Application) (time : Int) : ResponseTime := ⟨a, time, .empty⟩

def scheme (r : ResponseTime) : Scheme := r.application.type.scheme

/-- Counts under a code; a code that the scheme does not have counts nowhere. -/
def add (r : ResponseTime) (agent : String) (code : Int16) (count : Int64) : ResponseTime :=
  match (Histogram.empty r.scheme).addCode? code count with
  | some counted =>
    { r with agents := r.agents.update agent (.empty r.scheme) fun h => h.merge counted }
  | none => r

/-- All agents together. -/
def merged (r : ResponseTime) : Histogram := r.agents.values.foldl Histogram.merge (.empty r.scheme)

def totalCount (r : ResponseTime) : Int64 := r.agents.values.foldr (·.totalCount + ·) 0

end ResponseTime

end CallTelemetry.Topology
