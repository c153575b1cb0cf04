import CallTelemetry.Intake.Collector
import CallTelemetry.Settings.Web
import CallTelemetry.Topology.Agent
import CallTelemetry.Topology.Query
import CallTelemetry.Topology.Selection

/-! A monitor is a collector together with the readers of its tables. Reading takes time, which
reads that are asked for at once pass together, and it may fail; what is read is what the store
holds at the end of that time. -/
namespace CallTelemetry

open CallTelemetry.Topology

structure Monitor where
  collector : Intake.Collector
  agents : Registry
  /-- The time that decorating a map may take, in milliseconds. -/
  buildTimeout : Nat
  linkLimit : Nat
  readDelay : Nat
  /-- Why every read fails at present. -/
  readFault : Option StoreError

namespace Monitor

def start (b : Settings.Bulk) (w : Settings.Web) : Except SaltError Monitor := do
  let salting ← Salting.ofBuckets w.buckets
  return ⟨.start b w.tableNamespace salting, [], w.buildTimeout, w.linkLimit, 0, none⟩

def store (m : Monitor) : Store := m.collector.timeline.store

def tables (m : Monitor) : Tables := ⟨m.collector.space, m.collector.salting⟩

def onTimeline (m : Monitor) (f : Timeline → Timeline) : Monitor :=
  { m with collector := { m.collector with timeline := f m.collector.timeline } }

def sleep (m : Monitor) (millis : Nat) : Monitor := m.onTimeline fun t => t.sleep millis

abbrev Reading (ε α : Type) := ExceptT ε (StateM Monitor) α

/-- Reads from the store as it is after the delay. Nothing is delayed and nothing fails unless some
row is `needed`. -/
def read (needed : Bool) (f : Tables → Store → Except StoreError α) : Reading StoreError α := do
  if needed then
    modify fun m => m.sleep m.readDelay
    if let some fault := (← get).readFault then throw fault
  let m ← get
  ExceptT.mk (pure (f m.tables m.store))

def outbound (a : Application) (w : TimeWindow) (aggregated : Bool) : Reading StoreError Links :=
  read (Query.reads a w) fun t s => Query.outbound s t a w aggregated

def inbound (a : Application) (w : TimeWindow) (aggregated : Bool) : Reading StoreError Links :=
  read (Query.reads a w) fun t s => Query.inbound s t a w aggregated

def responses (a : Application) (w : TimeWindow) : Reading StoreError (List ResponseTime) :=
  read (Query.reads a w) fun t s => Query.responses s t a w

/-- One level of a search. -/
def readLevel (w : TimeWindow) (aggregated : Bool) (outs ins : List Application) :
    Reading StoreError (List Links × List Links) :=
  read ((outs ++ ins).any fun a => Query.reads a w) fun t s => do
    return (← outs.mapM fun a => Query.outbound s t a w aggregated,
      ← ins.mapM fun a => Query.inbound s t a w aggregated)

def selectLinks (search : Search) (sources : List Application) (w : TimeWindow)
    (aggregated : Bool) : Reading StoreError Duplex :=
  search.select (readLevel w aggregated) sources

end Monitor

end CallTelemetry
