import CallTelemetry.Alarm.Check
import CallTelemetry.Monitor.Reading

/-! Alarms on what a monitor has collected. -/
namespace CallTelemetry.Monitor

open Alarm

/-- The evidence of one kind for the window of length `interval` that ends at `last`. -/
def evidence (a : Application) (last interval : Int) (kind : DataKind) :
    Reading AlarmError Evidence :=
  collect (fun a w => (responses a w).adapt AlarmError.store)
    (fun a w => (outbound a w false).adapt AlarmError.store) a last interval kind

def checkRules (a : Application) (last interval : Int) (rules : List Rule) :
    Reading AlarmError (List Alarm) :=
  Alarm.checkRules (evidence a last interval) rules

end CallTelemetry.Monitor
