import CallTelemetry.Alarm.Check
import CallTelemetry.Intake.Receiver
import CallTelemetry.Monitor.Lookup
import CallTelemetry.Settings.Properties
import CallTelemetry.Topology.MapError

/-! Errors in JSON: a name for the kind of error, and a message unless the cause is a matter of the
platform or of the bytes of a message. An error that only hands on another shows that one. -/
namespace CallTelemetry

namespace Inspection

def failure (kind message : String) : Json :=
  .object [("error", .text kind), ("message", .text message)]

def bareFailure (kind : String) : Json := .object [("error", .text kind)]

end Inspection

open Inspection

/-- Errors that are shown in JSON. -/
class Failure (ε : Type) where
  inspect : ε → Json

instance : Failure ReadError where
  inspect e := failure (match e with
    | .underflow .. => "Underflow"
    | .invalidLength .. => "InvalidLength"
    | .invalidText => "InvalidUtf8") e.message

instance : Failure SaltError where
  inspect e := failure (match e with
    | .invalidBucketCount _ => "InvalidBucketCount"
    | .keyTooShort _ => "KeyTooShort") e.message

instance : Failure RowError where
  inspect
    | .read e => Failure.inspect e
    | .salt e => Failure.inspect e
    | e@(.agentIdTooLong _) => failure "AgentIdTooLong" e.message
    | e@(.applicationNameTooLong _) => failure "ApplicationNameTooLong" e.message

instance : Failure StoreError where
  inspect e := failure (match e with
    | .unavailable _ => "Unavailable"
    | .timeout => "Timeout"
    | .invalidRequest _ => "InvalidRequest") e.message

instance : Failure RangeError where
  inspect e := failure "RangeError" e.message

instance : Failure Settings.SettingsError where
  inspect
    | .unreadableFile => bareFailure "Io"
    | e => failure "InvalidConfig" e.message

instance : Failure Intake.BindError where
  inspect e := failure (match e with
    | .unsupportedVersion _ => "UnsupportedVersion"
    | .missingTransactionId => "MissingTransactionId"
    | .invalidParentApplication .. => "InvalidParentApplication") e.message

instance : Failure Intake.IntakeError where
  inspect
    | .bind e => Failure.inspect e
    | .row e => Failure.inspect e
    | .store e => Failure.inspect e
    | e@(.handshake _) => failure "InvalidHandshake" e.message
    | e@(.handshakeRequired) => failure "HandshakeRequired" e.message

instance : Failure Intake.HandshakeError where
  inspect e := Failure.inspect (Intake.IntakeError.handshake e)

instance : Failure Intake.ConnectionError where
  inspect e := failure "Io" e.message

instance : Failure Wire.FrameError where
  inspect
    | .malformedBody => bareFailure "Decode"
    | e@(.unknownKind _) => failure "UnknownKind" e.message
    | e@(.tooLarge ..) => failure "TooLarge" e.message
    | e@(.malformedLength) => failure "InvalidLength" e.message

instance : Failure Topology.MapError where
  inspect
    | .store e => Failure.inspect e
    | e@(.linkLimitExceeded ..) => failure "LinkLimitExceeded" e.message
    | e@(.buildTimeout _) => failure "BuildTimeout" e.message

instance : Failure Alarm.AlarmError where
  inspect
    | .range e => Failure.inspect e
    | .store e => Failure.inspect e
    | e@(.unknownChecker _) => failure "UnknownChecker" e.message
    | e@(.wrongData ..) => failure "CollectorMismatch" e.message

instance : Failure Monitor.LookupError where
  inspect
    | .row e => Failure.inspect e
    | .store e => Failure.inspect e

/-- The value, or the error in its place. -/
def Inspection.outcome [Failure ε] (f : α → Json) : Except ε α → Json
  | .ok x => f x
  | .error e => Failure.inspect e

/-- The outcome of what answers nothing but that it was done. -/
def Inspection.done [Failure ε] : Except ε Unit → Json := outcome fun _ => .text "ok"

end CallTelemetry
