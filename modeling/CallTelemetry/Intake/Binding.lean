import CallTelemetry.Intake.Attribute
import CallTelemetry.Metadata.Signature
import CallTelemetry.Trace.Archive
import CallTelemetry.Wire.Frame

/-! From messages to spans, chunks and metadata. Events come relative to the event that arrived
before them; their absolute start and depth are found in the order of arrival, and only then are
they put in the order of their sequence. -/
namespace CallTelemetry.Intake

open Trace

inductive BindError where
  | unsupportedVersion (version : Int32)
  | missingTransactionId
  | invalidParentApplication (parent application agent : String)
  deriving DecidableEq

def BindError.message : BindError → String
  | .unsupportedVersion version => s!"unsupported version: {version.toInt}"
  | .missingTransactionId => "transaction id is not set"
  | .invalidParentApplication parent application agent =>
    s!"invalid parent application name '{parent}' from {application}/{agent}"

def traceVersion : Int32 := 1

def checkVersion (version : Int32) : Except BindError Unit :=
  if version = traceVersion then .ok () else .error (.unsupportedVersion version)

/-- A code that does not fit 16 bits is not registered. -/
def serviceType (code : Int32) : ServiceType :=
  if -0x8000 ≤ code.toInt ∧ code.toInt < 0x8000 then .ofCode code.toInt16 else .undefined

def transactionId (m : Option Wire.TransactionRef) (agentId : String) :
    Except BindError TransactionId :=
  match m with
  | none => .error .missingTransactionId
  | some m =>
    .ok ⟨if m.agentId.isEmpty then agentId else m.agentId, m.agentStartTime, m.sequence⟩

def exceptionInfo (m : Wire.IntText) : ExceptionInfo := ⟨m.int, m.text⟩

/-- Narrow numbers travel in wide fields, of which only the low bits count. -/
def tagValue (m : Option Wire.TagValue) : TagValue :=
  match m.bind (·.content) with
  | none => .null
  | some (.text s) => .text s
  | some (.bool b) => .bool b
  | some (.int x) => .int x
  | some (.long x) => .long x
  | some (.short x) => .short x.toInt16
  | some (.double bits) => .double bits
  | some (.binary b) => .binary b
  | some (.byte x) => .byte x.toUInt32.toUInt8
  | some (.intText m) => .intText m.int m.text
  | some (.textText m) => .textText m.first m.second
  | some (.numbersText m) =>
    .numbersText m.long m.int1 m.int2 m.byte1.toUInt32.toUInt8 m.byte2.toUInt32.toUInt8 m.text

/-- By key; equal keys stay in the order of arrival. -/
def tags (ms : List Wire.Tag) : List Tag :=
  (ms.map fun m => (⟨m.key, tagValue m.value⟩ : Tag)).mergeSort fun a b => decide (a.key ≤ b.key)

/-- The start and the depth of an event, against which the next one is read. -/
structure Position where
  startElapsed : Int32
  depth : Int32
  deriving DecidableEq

def Position.zero : Position := ⟨0, 0⟩

def Position.advance (p : Position) (m : Wire.SpanEvent) : Position :=
  ⟨p.startElapsed + m.startElapsed, if m.depth = 0 then p.depth else m.depth⟩

def spanEvent (previous : Position) (m : Wire.SpanEvent) : SpanEvent :=
  let position := previous.advance m
  let next := m.nextEvent.bind (·.messageEvent)
  { sequence := m.sequence
    startElapsed := position.startElapsed
    endElapsed := m.endElapsed
    depth := position.depth
    serviceType := serviceType m.serviceType
    apiId := m.apiId
    endPoint := next.bind fun e => nonEmpty e.endPoint
    destinationId := next.bind fun e => nonEmpty e.destinationId
    nextSpanId := next.map (·.nextSpanId)
    nextAsyncId := if m.asyncEvent = 0 then none else some m.asyncEvent
    tags := tags m.tags
    exceptionInfo := m.exceptionInfo.map exceptionInfo }

/-- The events in the order of arrival. -/
def arrivedEvents (previous : Position) : List Wire.SpanEvent → List SpanEvent
  | [] => []
  | m :: ms => spanEvent previous m :: arrivedEvents (previous.advance m) ms

def spanEvents (ms : List Wire.SpanEvent) : List SpanEvent :=
  bySequence (arrivedEvents .zero ms)

/-- A parent that is named must be named by a valid identifier. -/
def parent (a : Attribute) (m : Option Wire.ParentInfo) :
    Except BindError (Option Application) :=
  match m with
  | none => .ok none
  | some m =>
    if m.applicationName.isEmpty then .ok none
    else if Identifier.valid m.applicationName then
      .ok (some ⟨m.applicationName, serviceType m.applicationType⟩)
    else .error (.invalidParentApplication m.applicationName a.applicationName a.agentId)

def span (a : Attribute) (m : Wire.Span) : Except BindError Span := do
  checkVersion m.version
  let transactionId ← transactionId m.transactionId a.agentId
  let parentInfo := m.acceptEvent.bind (·.parentInfo)
  let parent ← parent a parentInfo
  return {
    transactionId
    agentId := a.agentId
    applicationName := a.applicationName
    agentStartTime := a.agentStartTime
    acceptTime := a.acceptedTime
    spanId := m.spanId
    parentSpanId := m.parentSpanId
    startTime := m.startTime
    elapsed := m.elapsed
    serviceType := serviceType m.serviceType
    applicationServiceType := serviceType m.applicationServiceType
    apiId := m.apiId
    rpc := m.acceptEvent.bind fun e => nonEmpty e.rpc
    endPoint := m.acceptEvent.bind fun e => nonEmpty e.endPoint
    remoteAddr := m.acceptEvent.bind fun e => nonEmpty e.remoteAddr
    acceptorHost := parentInfo.bind fun p => nonEmpty p.acceptorHost
    parent
    flag := m.flag.toInt16
    errCode := m.err
    loggingTransactionInfo := m.loggingTransactionInfo.toUInt32.toUInt8
    exceptionInfo := m.exceptionInfo.map exceptionInfo
    tags := tags m.tags
    events := spanEvents m.spanEvents }

def spanChunk (a : Attribute) (m : Wire.SpanChunk) : Except BindError SpanChunk := do
  checkVersion m.version
  let transactionId ← transactionId m.transactionId a.agentId
  return {
    transactionId
    agentId := a.agentId
    applicationName := a.applicationName
    agentStartTime := a.agentStartTime
    spanId := m.spanId
    keyTime := m.keyTime
    endPoint := nonEmpty m.endPoint
    applicationServiceType := serviceType m.applicationServiceType
    localAsyncId := m.localAsyncId.map fun i => ⟨i.asyncId, i.sequence⟩
    events := spanEvents m.spanEvents }

def metadataKey (a : Attribute) (id : Int32) : Metadata.Key := ⟨a.agentId, a.agentStartTime, id⟩

def apiMetadata (a : Attribute) (m : Wire.ApiMetadata) : Metadata.Entry Metadata.ApiSignature :=
  ⟨metadataKey a m.apiId, m.apiInfo, m.line, .ofCode m.methodType, nonEmpty m.location⟩

def stringMetadata (a : Attribute) (m : Wire.StringMetadata) : Metadata.Entry String :=
  ⟨metadataKey a m.stringId, m.value⟩

def sqlMetadata (a : Attribute) (m : Wire.SqlMetadata) : Metadata.Entry String :=
  ⟨metadataKey a m.sqlId, m.sql⟩

end CallTelemetry.Intake
