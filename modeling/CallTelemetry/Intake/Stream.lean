import CallTelemetry.Intake.Collector

/-! The stream of one agent. Its first frame is a handshake that names the agent; every later frame
is handled under that name, whether or not those before it were refused. A bad handshake, or bytes
that are no frame, close the stream. A clock tells for each frame of the stream when it is
accepted. -/
namespace CallTelemetry.Intake

inductive Phase where
  | awaitingHandshake
  | established (a : Attribute)
  | closed
  deriving DecidableEq

namespace Phase

/-- Takes a frame that is accepted at `time`. -/
def receive (p : Phase) (c : Collector) (time : Int64) (f : Wire.Frame) : Phase × Collector :=
  match p, f with
  | .awaitingHandshake, .handshake m =>
    match Attribute.ofHandshake m time with
    | .ok a => (.established a, c)
    | .error _ => (.closed, c)
  | .awaitingHandshake, _ => (.closed, c)
  | .established a, f => (p, (c.handle (a.acceptedAt time) f).2)
  | .closed, _ => (p, c)

/-- Takes frames, each with the time at which it is accepted. -/
def receiveAll (p : Phase) (c : Collector) (fs : List (Int64 × Wire.Frame)) : Phase × Collector :=
  fs.foldl (fun (p, c) (time, f) => p.receive c time f) (p, c)

end Phase

structure Stream where
  phase : Phase
  decoder : Wire.Frame.Decoder
  /-- The number of frames that were taken. -/
  received : Nat

namespace Stream

def opened (limit : Nat) : Stream := ⟨.awaitingHandshake, ⟨limit, [], false⟩, 0⟩

/-- Frames with the times that a clock shows for them, the first of which is the `n`th of the
stream. -/
def timed (clock : Nat → Int64) (n : Nat) (fs : List Wire.Frame) : List (Int64 × Wire.Frame) :=
  (fs.zipIdx n).map fun (f, n) => (clock n, f)

/-- Takes the next bytes of the stream; after an error they are not looked at. -/
def feed (clock : Nat → Int64) (s : Stream) (c : Collector) (chunk : Bytes) : Stream × Collector :=
  if s.decoder.failed then (s, c)
  else
    let (frames, _, decoder) := s.decoder.feed chunk
    let (phase, c) := s.phase.receiveAll c (timed clock s.received frames)
    (⟨phase, decoder, s.received + frames.length⟩, c)

/-- Takes the chunks of a stream, one after another. -/
def feedAll (clock : Nat → Int64) (s : Stream) (c : Collector) (chunks : List Bytes) :
    Stream × Collector :=
  chunks.foldl (fun (s, c) chunk => s.feed clock c chunk) (s, c)

/-- Takes a whole stream. -/
def consume (limit : Nat) (clock : Nat → Int64) (c : Collector) (chunks : List Bytes) : Collector :=
  ((opened limit).feedAll clock c chunks).2

end Stream

end CallTelemetry.Intake
