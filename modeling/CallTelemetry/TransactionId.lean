import CallTelemetry.Json
import CallTelemetry.Text.Blank
import CallTelemetry.Text.Integer

/-! Transaction identifiers: the agent that began the transaction, when that agent started, and a
sequence number of its own. In text the three parts stand between carets. The agent may hold
carets itself, so text is taken apart from its end. -/
namespace CallTelemetry

structure TransactionId where
  agentId : String
  agentStartTime : Int64
  sequence : Int64
  deriving DecidableEq

namespace TransactionId

def compareIds : TransactionId → TransactionId → Ordering :=
  compareLex (compareOn agentId) (compareLex (compareOn agentStartTime) (compareOn sequence))

instance : Ord TransactionId := ⟨compareIds⟩

instance : Std.TransOrd TransactionId :=
  inferInstanceAs (Std.TransCmp
    (compareLex (compareOn agentId) (compareLex (compareOn agentStartTime) (compareOn sequence))))

instance : Std.LawfulEqOrd TransactionId where
  eq_of_compare {a b} h := by
    change compareLex _ (compareLex _ _) a b = _ at h
    simp only [compareLex_eq_eq, compareOn, Std.LawfulEqOrd.compare_eq_iff_eq] at h
    cases a
    cases b
    simp_all

def separator : Char := '^'

def render (t : TransactionId) : String :=
  let c := separator.toString
  t.agentId ++ c ++ toString t.agentStartTime.toInt ++ c ++ toString t.sequence.toInt

def int64? (cs : List Char) : Option Int64 :=
  (Text.integerIn? Int64.minValue.toInt Int64.maxValue.toInt cs).map Int64.ofInt

/-- The pieces are rejoined but for the last two, which are numbers. -/
def parse? (s : String) : Option TransactionId :=
  match (Text.split separator s.toList).reverse with
  | sequence :: startTime :: piece :: pieces =>
    let agentId := String.ofList ([separator].intercalate (piece :: pieces).reverse)
    if agentId.isEmpty then none
    else do return ⟨agentId, ← int64? startTime, ← int64? sequence⟩
  | _ => none

/-- What is answered for text that is no identifier. -/
def rejection (s : String) : String := s!"invalid transaction id: '{s}'"

def toJson (t : TransactionId) : Json :=
  .object [("agentId", .text t.agentId), ("agentStartTime", .ofInt64 t.agentStartTime),
    ("sequence", .ofInt64 t.sequence)]

end TransactionId

end CallTelemetry
