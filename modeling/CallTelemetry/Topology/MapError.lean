import CallTelemetry.Json
import CallTelemetry.Storage.Store
import CallTelemetry.Topology.Links

/-! Why a map could not be drawn, and how that is answered. -/
namespace CallTelemetry.Topology

inductive MapError where
  | linkLimitExceeded (count threshold : Nat)
  /-- With the time that was allowed, in microseconds. -/
  | buildTimeout (micros : Nat)
  | store (error : StoreError)
  deriving DecidableEq

/-- An answer to a request, in JSON. -/
structure Response where
  status : Nat
  body : String
  deriving DecidableEq

def Response.contentType : String := "application/json"

def Response.ofMessage (status : Nat) (message : String) : Response :=
  ⟨status, (Json.object [("message", .text message)]).render⟩

namespace MapError

def message : MapError → String
  | .linkLimitExceeded count threshold =>
    "Too many link data. Reduce the inbound/outbound depth or do not select the bidirectional " ++
      s!"option. limiter=LinkDataLimiter\x7bcount={count}, threshold={threshold}\x7d"
  | .buildTimeout micros =>
    let millis := micros / 1000
    s!"application map build exceeded {millis}ms"
  | .store error => error.message

def status : MapError → Nat
  | .linkLimitExceeded _ _ => 500
  | .buildTimeout _ => 504
  | .store .timeout => 504
  | .store _ => 503

def response (e : MapError) : Response := .ofMessage e.status e.message

end MapError

/-- Refuses more links than `threshold`. -/
def Duplex.check (threshold : Nat) (d : Duplex) : Except MapError Unit :=
  if threshold < d.size then .error (.linkLimitExceeded d.size threshold) else .ok ()

end CallTelemetry.Topology
