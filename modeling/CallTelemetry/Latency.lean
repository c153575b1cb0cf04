/-! Classes of response times. A scheme bounds the fast, normal and slow calls in milliseconds;
statistics name a class by a 16-bit code, which is the bound of a bounded class. -/
namespace CallTelemetry

namespace Latency

/-- Five slots count calls; `sum` adds their times up and `max` keeps the longest. -/
inductive Slot where
  | fast
  | normal
  | slow
  | verySlow
  | error
  | sum
  | max
  deriving DecidableEq

namespace Slot

def all : List Slot := [fast, normal, slow, verySlow, error, sum, max]

def counted : List Slot := [fast, normal, slow, verySlow, error]

def name : Slot → String
  | fast => "Fast"
  | normal => "Normal"
  | slow => "Slow"
  | verySlow => "VerySlow"
  | error => "Error"
  | sum => "Sum"
  | max => "Max"

def ofName? (name : String) : Option Slot := all.find? fun s => s.name == name

end Slot

structure Scheme where
  typeCode : Int32
  fast : Int32
  normal : Int32
  slow : Int32
  deriving DecidableEq

namespace Scheme

def standard : Scheme := ⟨1, 1000, 3000, 5000⟩

def quick : Scheme := ⟨2, 100, 300, 500⟩

/-- The slot that counts a call. A failed call counts as such, however long it took. -/
def classify (s : Scheme) (elapsed : Int32) (failed : Bool) : Slot :=
  if failed then .error
  else if elapsed ≤ s.fast then .fast
  else if elapsed ≤ s.normal then .normal
  else if elapsed ≤ s.slow then .slow
  else .verySlow

def code (s : Scheme) : Slot → Int16
  | .fast => s.fast.toInt16
  | .normal => s.normal.toInt16
  | .slow => s.slow.toInt16
  | .verySlow => 0
  | .error => -1
  | .sum => -2
  | .max => -3

/-- The fixed codes come first, also where a bound has the same value. -/
def slotOfCode? (s : Scheme) (code : Int16) : Option Slot :=
  if code = 0 then some .verySlow
  else if code = -1 then some .error
  else if code = -2 then some .sum
  else if code = -3 then some .max
  else if code.toInt32 = s.fast then some .fast
  else if code.toInt32 = s.normal then some .normal
  else if code.toInt32 = s.slow then some .slow
  else none

/-- Bounds from a second on are given in whole seconds. -/
def boundLabel (millis : Int32) : String :=
  if 1000 ≤ millis then toString (millis.toInt.tdiv 1000) ++ "s" else toString millis.toInt ++ "ms"

def label (s : Scheme) : Slot → String
  | .fast => boundLabel s.fast
  | .normal => boundLabel s.normal
  | .slow => boundLabel s.slow
  | .verySlow => "Slow"
  | .error => "Error"
  | .sum => "Sum"
  | .max => "Max"

end Scheme

end Latency

end CallTelemetry
