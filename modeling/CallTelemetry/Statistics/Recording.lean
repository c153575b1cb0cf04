import CallTelemetry.Application
import CallTelemetry.Pending.Writer
import CallTelemetry.Statistics.Column
import CallTelemetry.Statistics.RowKey
import CallTelemetry.Trace.Span

/-! The changes of counters that calls and spans give rise to. A call counts once in its class,
adds its time to the sum and raises the maximum; it does so in the row of the caller, in the row of
the callee, or in both. -/
namespace CallTelemetry.Statistics

open Pending Latency

inductive Side where
  | caller
  | callee
  | self
  deriving DecidableEq

namespace Side

def name : Side → String
  | caller => "caller"
  | callee => "callee"
  | self => "self"

def all : List Side := [caller, callee, self]

def family : Side → ColumnFamily
  | caller => .callerCounter
  | callee => .calleeCounter
  | self => .selfCounter

end Side

structure Call where
  caller : Application
  callerAgentId : String
  callee : Application
  calleeHost : String
  elapsed : Int32
  failed : Bool
  timestamp : Int
  deriving DecidableEq

/-- The changes of one call in one row. -/
def changes (row : RowKey) (column : Slot → Bytes) (class_ : Slot) (elapsed : Int32) :
    List Mutation :=
  let image : RowImage := ⟨row.encode, true⟩
  [⟨image, column class_, .add 1⟩, ⟨image, column .sum, .add elapsed.toInt64⟩,
    ⟨image, column .max, .raise elapsed.toInt64⟩]

/-- In the row of the caller, for what it called. -/
def outbound (c : Call) : Except RowError (List Mutation) := do
  let row ← RowKey.of c.caller.name c.caller.type.code (timeSlot c.timestamp)
  let scheme := c.callee.type.scheme
  let column (slot : Slot) : Bytes :=
    CalleeColumn.encode ⟨c.callee.type.code, c.callee.name, c.calleeHost, scheme.code slot,
      c.callerAgentId⟩
  return changes row column (scheme.classify c.elapsed c.failed) c.elapsed

/-- In the row of the callee, for who called it. -/
def inbound (c : Call) : Except RowError (List Mutation) := do
  let row ← RowKey.of c.callee.name c.callee.type.code (timeSlot c.timestamp)
  let scheme := c.callee.type.scheme
  let column (slot : Slot) : Bytes :=
    CallerColumn.encode ⟨c.caller.type.code, c.caller.name, c.calleeHost, scheme.code slot⟩
  return changes row column (scheme.classify c.elapsed c.failed) c.elapsed

/-- In the row of an application that answered, for the agent that did. -/
def response (a : Application) (agentId : String) (elapsed : Int32) (failed : Bool)
    (timestamp : Int) : Except RowError (List Mutation) := do
  let row ← RowKey.of a.name a.type.code (timeSlot timestamp)
  let scheme := a.type.scheme
  let column (slot : Slot) : Bytes := ResponseColumn.encode ⟨scheme.code slot, agentId⟩
  return changes row column (scheme.classify elapsed failed) elapsed

/-- A call whose row has no key is left out. -/
def onSide (side : Side) (mutations : Except RowError (List Mutation)) : List (Side × Mutation) :=
  match mutations with
  | .ok ms => ms.map (side, ·)
  | .error _ => []

/-- The call that a span answers. Without a parent it is the user's, who goes by the name of the
application. -/
def inboundCall (s : Trace.Span) : Call :=
  let callee : Application := ⟨s.applicationName, s.applicationServiceType⟩
  match s.parent with
  | some parent =>
    ⟨parent, parent.name, callee, s.acceptorHost.getD s.agentId, s.elapsed, s.hasError,
      s.acceptTime.toInt⟩
  | none =>
    ⟨⟨s.applicationName, .user⟩, s.applicationName, callee, s.agentId, s.elapsed, s.hasError,
      s.acceptTime.toInt⟩

/-- The call that an event makes, if it enters the statistics and names where it went. -/
def eventCall? (caller : Application) (agentId : String) (timestamp : Int)
    (e : Trace.SpanEvent) : Option Call :=
  if e.serviceType.recordsStatistics then
    e.destinationId.map fun destination =>
      ⟨caller, agentId, ⟨destination, e.serviceType⟩, e.endPoint.getD destination, e.endElapsed,
        e.hasException, timestamp⟩
  else none

def ofEvents (caller : Application) (agentId : String) (timestamp : Int)
    (events : List Trace.SpanEvent) : List (Side × Mutation) :=
  (events.filterMap (eventCall? caller agentId timestamp)).flatMap fun c =>
    onSide .caller (outbound c)

/-- The response time of a span, the call that it answers, and the calls that its events make. Only
a call by the user is entered on both sides here: any other caller enters its own. -/
def ofSpan (s : Trace.Span) : List (Side × Mutation) :=
  let application : Application := ⟨s.applicationName, s.applicationServiceType⟩
  let call := inboundCall s
  onSide .self (response application s.agentId s.elapsed s.hasError s.acceptTime.toInt) ++
    onSide .callee (inbound call) ++
    (if s.parent.isNone then onSide .caller (outbound call) else []) ++
    ofEvents application s.agentId s.acceptTime.toInt s.events

def ofChunk (c : Trace.SpanChunk) (acceptTime : Int64) : List (Side × Mutation) :=
  ofEvents ⟨c.applicationName, c.applicationServiceType⟩ c.agentId acceptTime.toInt c.events

end CallTelemetry.Statistics
