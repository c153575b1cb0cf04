import CallTelemetry.Json
import CallTelemetry.Text.Blank
import CallTelemetry.Text.Case

/-! What an alarm can watch: how many calls were slow, failed or were made at all, or which part of
all calls was slow or failed. It watches the calls that an application answers, or those that it
makes to one other application. -/
namespace CallTelemetry.Alarm

inductive Measure where
  | slowCount
  | slowRate
  | errorCount
  | errorRate
  | totalCount
  deriving DecidableEq

namespace Measure

def all : List Measure := [slowCount, slowRate, errorCount, errorRate, totalCount]

def name : Measure → String
  | slowCount => "SLOW COUNT"
  | slowRate => "SLOW RATE"
  | errorCount => "ERROR COUNT"
  | errorRate => "ERROR RATE"
  | totalCount => "TOTAL COUNT"

def isRate : Measure → Bool
  | slowRate | errorRate => true
  | _ => false

end Measure

/-- The data that a checker needs. -/
inductive DataKind where
  | responseTime
  | callerStatistics
  deriving DecidableEq

def DataKind.name : DataKind → String
  | responseTime => "RESPONSE_TIME"
  | callerStatistics => "CALLER_STAT"

structure Checker where
  measure : Measure
  toCallee : Bool
  deriving DecidableEq

namespace Checker

def all : List Checker :=
  (Measure.all.map fun m => ⟨m, false⟩) ++ Measure.all.map fun m => ⟨m, true⟩

def name (c : Checker) : String := c.measure.name ++ if c.toCallee then " TO CALLEE" else ""

def ofExactName? (name : String) : Option Checker := all.find? fun c => c.name == name

/-- Blanks around a name and the case of its letters do not matter. -/
def ofName? (name : String) : Option Checker :=
  all.find? fun c => Text.equalsIgnoringAsciiCase c.name (Text.trim name)

def kind (c : Checker) : DataKind := if c.toCallee then .callerStatistics else .responseTime

def unit (c : Checker) : String := if c.measure.isRate then "%" else ""

def toJson (c : Checker) : Json := .text c.name

end Checker

end CallTelemetry.Alarm
