import CallTelemetry.Alarm.Evidence
import CallTelemetry.Alarm.Rule
import CallTelemetry.Storage.Store
import CallTelemetry.TimeWindow

/-! Checking rules against the calls of a window of time. Rules share the data that they need: each
kind of data is read once, when a rule first asks for it. -/
namespace CallTelemetry

open CallTelemetry.Topology

namespace Alarm

inductive AlarmError where
  | unknownChecker (name : String)
  | wrongData (checker : Checker) (actual : DataKind)
  | range (error : RangeError)
  | store (error : StoreError)
  deriving DecidableEq

def AlarmError.message : AlarmError → String
  | .unknownChecker name => s!"unknown checker '{name}'"
  | .wrongData checker actual =>
    let name := checker.name
    let expected := checker.kind.name
    let actual := actual.name
    s!"{name} needs {expected} data, got {actual}"
  | .range error => error.message
  | .store error => error.message

end Alarm

/-- A rule with its checker, and what came of the last check. -/
structure Alarm where
  checker : Alarm.Checker
  rule : Alarm.Rule
  value : Option Int64
  detected : Bool
  deriving DecidableEq

namespace Alarm

def checkerOf (name : String) : Except AlarmError Checker :=
  match Checker.ofName? name with
  | some checker => .ok checker
  | none => .error (.unknownChecker name)

def ofRule (r : Rule) : Except AlarmError Alarm := do
  return ⟨← checkerOf r.checkerName, r, none, false⟩

/-- The calls that the alarm watches. -/
def watched (a : Alarm) (e : Evidence) : Except AlarmError CallCount :=
  match e, a.checker.toCallee with
  | .responses count, false => .ok count
  | .callees counts, true => .ok (counts.getD a.rule.notes .zero)
  | _, _ => .error (.wrongData a.checker e.kind)

/-- Raised from the threshold on. -/
def check (a : Alarm) (e : Evidence) : Except AlarmError Alarm := do
  let value := (← a.watched e).value a.checker.measure
  return { a with value := some value, detected := decide (a.rule.threshold ≤ value) }

def subject (a : Alarm) : String :=
  a.checker.name ++ if a.checker.toCallee then " " ++ a.rule.notes else ""

def valueText (a : Alarm) : String := toString (a.value.getD 0).toInt ++ a.checker.unit

def thresholdText (a : Alarm) : String := toString a.rule.threshold.toInt ++ a.checker.unit

def smsMessage (a : Alarm) : String :=
  "[PINPOINT Alarm - " ++ a.rule.applicationId ++ "] " ++ a.subject ++ " is " ++ a.valueText ++
    " (Threshold : " ++ a.thresholdText ++ ")"

def emailMessage (a : Alarm) : String :=
  a.subject ++ " value is " ++ a.valueText ++ " during the past 5 mins.(Threshold : " ++
    a.thresholdText ++ ")"

/-- The length of the window in milliseconds. -/
def standardInterval : Int := 300000

variable {m : Type → Type} [Monad m]

/-- Reads one kind of data for the window of length `interval` that ends at `last`. -/
def collect (responses : Application → TimeWindow → ExceptT AlarmError m (List ResponseTime))
    (outbound : Application → TimeWindow → ExceptT AlarmError m Links) (a : Application)
    (last interval : Int) (kind : DataKind) : ExceptT AlarmError m Evidence := do
  let range ← ExceptT.mk (pure ((TimeRange.endingAt last interval).mapError .range))
  match kind with
  | .responseTime => return .ofResponses (← responses a (.ofRange range))
  | .callerStatistics => return .ofLinks (← outbound a (.ofRange range))

/-- What is held of a kind of data, which is read if nothing is. -/
def heldOrCollected (collect : DataKind → ExceptT AlarmError m Evidence) (held : List Evidence)
    (kind : DataKind) : ExceptT AlarmError m (Evidence × List Evidence) :=
  match held.find? fun e => e.kind == kind with
  | some e => return (e, held)
  | none => do
    let e ← collect kind
    return (e, e :: held)

def checkAlarms (collect : DataKind → ExceptT AlarmError m Evidence) :
    List Evidence → List Alarm → ExceptT AlarmError m (List Alarm)
  | _, [] => return []
  | held, a :: rest => do
    let (e, held) ← heldOrCollected collect held a.checker.kind
    let a ← ExceptT.mk (pure (a.check e))
    return a :: (← checkAlarms collect held rest)

/-- Checks the rules in their order; a rule whose checker is unknown is left out. -/
def checkRules (collect : DataKind → ExceptT AlarmError m Evidence) (rules : List Rule) :
    ExceptT AlarmError m (List Alarm) :=
  checkAlarms collect [] (rules.filterMap fun r => (ofRule r).toOption)

end Alarm

end CallTelemetry
