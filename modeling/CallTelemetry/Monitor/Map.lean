import CallTelemetry.Monitor.Reading
import CallTelemetry.Topology.Drawing

/-! Maps drawn from what a monitor has collected. The response times of all nodes are read at once,
and if that takes longer than is allowed there is no map. -/
namespace CallTelemetry.Monitor

open CallTelemetry.Topology

/-- Waits for the response times of the nodes. -/
def awaitResponses (w : TimeWindow) (map : ApplicationMap) : Reading MapError Unit := do
  let m ← get
  if map.nodes.keys.any fun a => a.type.isServer && Query.reads a w then
    if m.buildTimeout < m.readDelay then
      set (m.sleep m.buildTimeout)
      throw (.buildTimeout (m.buildTimeout * 1000))
    set (m.sleep m.readDelay)
    if let some fault := m.readFault then throw (.store fault)

/-- Gives the nodes of a map their histograms, if `detail` asks for them, and their servers, if
`source` does. -/
def decorate (w : TimeWindow) (detail : Option Detail) (source : Option ServerSource) (d : Duplex)
    (map : ApplicationMap) : Reading MapError ApplicationMap := do
  if detail.isSome then awaitResponses w map
  let m ← get
  let responses (a : Application) : Except StoreError (List ResponseTime) :=
    Query.responses m.store m.tables a w
  let agents (a : Application) : List Agent := m.agents.select a w.range.last
  let built := build (detail.map fun detail => NodeHistogram.read detail d w responses)
    (source.map fun source a n => .ok (source.servers d agents a n)) map
  ExceptT.mk (pure (built.mapError .store))

/-- A map of given links. -/
def mapOfLinks (w : TimeWindow) (detail : Option Detail) (source : Option ServerSource)
    (d : Duplex) : Reading MapError ApplicationMap :=
  decorate w detail source d (.ofDuplex w.range d)

/-- A map of one application, without links. -/
def mapOfSource (w : TimeWindow) (detail : Option Detail) (source : Option ServerSource)
    (a : Application) : Reading MapError ApplicationMap :=
  decorate w detail source .empty (.ofSource w.range a)

def draw (r : MapRequest) : Reading MapError ApplicationMap := do
  let limit := (← get).linkLimit
  Topology.draw limit
    (fun outs ins => (readLevel r.window r.aggregated outs ins).adapt MapError.store)
    (fun source d map => decorate r.window (some r.detail) (some source) d map) r

end CallTelemetry.Monitor
