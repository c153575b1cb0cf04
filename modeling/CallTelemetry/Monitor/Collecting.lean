import CallTelemetry.Monitor.Reading

/-! What a monitor collects, and when it writes it. -/
namespace CallTelemetry.Monitor

open Statistics

def handle (m : Monitor) (a : Intake.Attribute) (f : Wire.Frame) :
    Except Intake.IntakeError Unit × Monitor :=
  let (outcome, collector) := m.collector.handle a f
  (outcome, { m with collector })

/-- Counts a call on one side; a call whose row has no key counts nowhere. -/
def recordCall (m : Monitor) (side : Side) (c : Call) (agentId : String) :
    Except RowError Unit × Monitor :=
  let changes := match side with
    | .caller => Statistics.outbound c
    | .callee => Statistics.inbound c
    | .self => Statistics.response c.callee agentId c.elapsed c.failed c.timestamp
  match changes with
  | .ok ms => (.ok (), { m with collector := m.collector.record (ms.map (side, ·)) })
  | .error e => (.error e, m)

/-- Sends a request to the store. -/
def send (m : Monitor) (r : Request) : Except StoreError Unit × Monitor :=
  let (outcome, timeline) := m.collector.timeline.request r
  (outcome, { m with collector := { m.collector with timeline } })

def flush (m : Monitor) : Monitor :=
  m.onTimeline fun t => t.flush (Timeline.flushings Intake.Collector.writerNames)

/-- Flushes at regular intervals until it is stopped. -/
def startFlusher (m : Monitor) (interval : Nat) : Nat × Monitor :=
  let (id, timeline) := m.collector.timeline.startFlusher Intake.Collector.writerNames interval
  (id, { m with collector := { m.collector with timeline } })

def stopFlusher (m : Monitor) (id : Nat) : Monitor := m.onTimeline fun t => t.stopFlusher id

end CallTelemetry.Monitor
