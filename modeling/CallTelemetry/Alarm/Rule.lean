import CallTelemetry.Alarm.Checker
import CallTelemetry.Json.Document

/-! Rules of alarms: a checker by name, the value from which it raises an alarm, and who is told. -/
namespace CallTelemetry.Alarm

structure Rule where
  applicationId : String
  serviceType : String
  checkerName : String
  threshold : Int64
  userGroupId : String
  smsSend : Bool
  emailSend : Bool
  webhookSend : Bool
  /-- Names the callee for a checker of calls to one. -/
  notes : String
  deriving DecidableEq

namespace Rule

def toJson (r : Rule) : Json :=
  .object [("applicationId", .text r.applicationId), ("serviceType", .text r.serviceType),
    ("checkerName", .text r.checkerName), ("threshold", .ofInt64 r.threshold),
    ("userGroupId", .text r.userGroupId), ("smsSend", .bool r.smsSend),
    ("emailSend", .bool r.emailSend), ("webhookSend", .bool r.webhookSend),
    ("notes", .text r.notes)]

def fieldNames : List String :=
  ["applicationId", "serviceType", "checkerName", "threshold", "userGroupId", "smsSend",
    "emailSend", "webhookSend", "notes"]

/-- Who is told, and the notes, may be left out. -/
def ofDocument? (d : Json.Document) : Option Rule := do
  let text := Json.Document.required Json.Document.toText?
  let flag := Json.Document.optional Json.Document.toBool? false
  let integer := Json.Document.required
    (Json.Document.toIntIn? Int64.minValue.toInt Int64.maxValue.toInt)
  match ← d.fields? fieldNames with
  | [applicationId, serviceType, checkerName, threshold, userGroupId, sms, email, webhook, notes] =>
    return {
      applicationId := ← text applicationId
      serviceType := ← text serviceType
      checkerName := ← text checkerName
      threshold := .ofInt (← integer threshold)
      userGroupId := ← text userGroupId
      smsSend := ← flag sms
      emailSend := ← flag email
      webhookSend := ← flag webhook
      notes := ← Json.Document.optional Json.Document.toText? "" notes }
  | _ => none

def parse? (text : String) : Option Rule := Json.Document.parse? text >>= ofDocument?

end Rule

end CallTelemetry.Alarm
