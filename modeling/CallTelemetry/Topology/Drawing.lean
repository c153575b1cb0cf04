import CallTelemetry.Topology.ApplicationMap
import CallTelemetry.Topology.MapError
import CallTelemetry.Topology.SearchOption

/-! Drawing a map: the links around its source are selected and counted, every node is given its
histogram and its servers, and a source without links is drawn alone. -/
namespace CallTelemetry.Topology

/-- What a node is given; the histogram is there when the servers are listed. -/
def attachment [Monad m] (histogram? : Option (Application → m NodeHistogram))
    (servers? : Option (Application → Option NodeHistogram → m ServerGroups)) (a : Application) :
    m Node := do
  let n ← match histogram? with
    | some histogram => some <$> histogram a
    | none => pure none
  let g ← match servers? with
    | some servers => some <$> servers a n
    | none => pure none
  return ⟨n, g⟩

/-- Gives every node of a map what the two functions answer; if one of them fails there is no
map. -/
def build [Monad m] (histogram? : Option (Application → m NodeHistogram))
    (servers? : Option (Application → Option NodeHistogram → m ServerGroups))
    (map : ApplicationMap) : m ApplicationMap :=
  map.decorate (attachment histogram? servers?)

structure MapRequest where
  source : Application
  window : TimeWindow
  option : SearchOption
  /-- A map without agents takes all times of the window together. -/
  detail : Detail
  servers : ServerSource
  deriving DecidableEq

def MapRequest.aggregated (r : MapRequest) : Bool := r.detail == .simple

/-- A source that is drawn alone lists its registered agents. -/
def draw [Monad m] (limit : Nat)
    (readLevel : List Application → List Application → ExceptT MapError m (List Links × List Links))
    (decorate : ServerSource → Duplex → ApplicationMap → ExceptT MapError m ApplicationMap)
    (r : MapRequest) : ExceptT MapError m ApplicationMap := do
  let d ← r.option.search.select readLevel [r.source]
  ExceptT.mk (pure (d.check limit))
  let map ← decorate r.servers d (.ofDuplex r.window.range d)
  if map.isEmpty then decorate .registered .empty (.ofSource r.window.range r.source)
  else return map

end CallTelemetry.Topology
