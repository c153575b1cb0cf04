import CallTelemetry.Inspection
import CallTelemetry.Wire.Frame

/-! Frames in JSON: the kind in short, its byte, its name, and the message. -/
namespace CallTelemetry.Wire

def Frame.label : Frame → String
  | handshake _ => "handshake"
  | span _ => "span"
  | spanChunk _ => "span_chunk"
  | api _ => "api"
  | string _ => "string"
  | sql _ => "sql"

def Frame.inspect (f : Frame) : Json :=
  .object [("kind", .text f.label), ("code", .int f.kind.toNat), ("name", .text f.kindName),
    ("message", f.toJson)]

end CallTelemetry.Wire
