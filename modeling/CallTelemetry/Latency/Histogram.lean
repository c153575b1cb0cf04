import CallTelemetry.Json
import CallTelemetry.Latency

/-! Counts of calls by response time, for one scheme. Merging adds the counts and the total time,
which wrap around as words do, and keeps the longer maximum. -/
namespace CallTelemetry.Latency

structure Histogram where
  scheme : Scheme
  fast : Int64
  normal : Int64
  slow : Int64
  verySlow : Int64
  error : Int64
  sum : Int64
  max : Int64
  deriving DecidableEq

namespace Histogram

def empty (scheme : Scheme) : Histogram := ⟨scheme, 0, 0, 0, 0, 0, 0, 0⟩

def get (h : Histogram) : Slot → Int64
  | .fast => h.fast
  | .normal => h.normal
  | .slow => h.slow
  | .verySlow => h.verySlow
  | .error => h.error
  | .sum => h.sum
  | .max => h.max

def add (h : Histogram) (slot : Slot) (value : Int64) : Histogram :=
  match slot with
  | .fast => { h with fast := h.fast + value }
  | .normal => { h with normal := h.normal + value }
  | .slow => { h with slow := h.slow + value }
  | .verySlow => { h with verySlow := h.verySlow + value }
  | .error => { h with error := h.error + value }
  | .sum => { h with sum := h.sum + value }
  | .max => { h with max := Max.max h.max value }

/-- Counts one call by its response time. -/
def addCall (h : Histogram) (elapsed : Int32) (failed : Bool) : Histogram :=
  h.add (h.scheme.classify elapsed failed) 1

/-- Adds under a code; none if the scheme has no such code. -/
def addCode? (h : Histogram) (code : Int16) (value : Int64) : Option Histogram :=
  (h.scheme.slotOfCode? code).map (h.add · value)

/-- Keeps the scheme of the first. -/
def merge (h other : Histogram) : Histogram :=
  { h with
    fast := h.fast + other.fast
    normal := h.normal + other.normal
    slow := h.slow + other.slow
    verySlow := h.verySlow + other.verySlow
    error := h.error + other.error
    sum := h.sum + other.sum
    max := Max.max h.max other.max }

def totalCount (h : Histogram) : Int64 := h.fast + h.normal + h.slow + h.verySlow + h.error

def slowCount (h : Histogram) : Int64 := h.slow + h.verySlow

/-- Rounded toward zero; without calls it is zero. -/
def average (h : Histogram) : Int64 := if h.totalCount = 0 then 0 else h.sum / h.totalCount

/-- The counted slots by their labels, in display order. -/
def toMembers (h : Histogram) : List (String × Json) :=
  Slot.counted.map fun slot => (h.scheme.label slot, .ofInt64 (h.get slot))

def toJson (h : Histogram) : Json := .object h.toMembers

/-- The histogram of one time slot, in display form. -/
def toTimedJson (timestamp : Int) (h : Histogram) : Json :=
  .object (("timestamp", .int timestamp) :: h.toMembers)

end Histogram

end CallTelemetry.Latency
