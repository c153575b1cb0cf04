import CallTelemetry.Latency.Histogram
import CallTelemetry.SortedMap

/-! Histograms by time. Those of a new time are of the scheme of the series. -/
namespace CallTelemetry.Latency

structure Series where
  scheme : Scheme
  slots : SortedMap Int Histogram
  deriving DecidableEq

namespace Series

def empty (scheme : Scheme) : Series := ⟨scheme, .empty⟩

def add (s : Series) (time : Int) (slot : Slot) (value : Int64) : Series :=
  { s with slots := s.slots.update time (.empty s.scheme) fun h => h.add slot value }

/-- Merges a histogram into that of its time. -/
def mergeAt (s : Series) (time : Int) (h : Histogram) : Series :=
  { s with slots := s.slots.update time (.empty s.scheme) fun held => held.merge h }

def mergeAll (s : Series) (times : List (Int × Histogram)) : Series :=
  times.foldl (fun s e => s.mergeAt e.1 e.2) s

def merge (s other : Series) : Series := s.mergeAll other.slots.entries

/-- All times together. -/
def total (s : Series) : Histogram := s.slots.values.foldl Histogram.merge (.empty s.scheme)

def totalCount (s : Series) : Int64 := s.slots.values.foldr (·.totalCount + ·) 0

def toJson (s : Series) : Json :=
  .array (s.slots.entries.map fun e => e.2.toTimedJson e.1)

end Series

end CallTelemetry.Latency
