import CallTelemetry.Intake.Stream

/-! Streams come over a network. Each is opened, taken to its end and closed before the next is
opened; without a network none can be opened. -/
namespace CallTelemetry.Intake

inductive Network where
  | reachable
  | unreachable
  deriving DecidableEq

inductive ConnectionError where
  | networkUnreachable
  deriving DecidableEq

/-- With the number that operating systems give to the error. -/
def ConnectionError.message : ConnectionError → String
  | networkUnreachable => "Network is unreachable (os error 101)"

def Network.connect : Network → Except ConnectionError Unit
  | reachable => .ok ()
  | unreachable => .error .networkUnreachable

namespace Stream

/-- Takes streams, each in chunks, one after another, while the clock stands still. -/
def consumeAll (n : Network) (limit : Nat) (time : Int64) (c : Collector)
    (streams : List (List Bytes)) : Except ConnectionError Collector :=
  streams.foldlM (fun c chunks => do n.connect; return consume limit (fun _ => time) c chunks) c

end Stream

end CallTelemetry.Intake
