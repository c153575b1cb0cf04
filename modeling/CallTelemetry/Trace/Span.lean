import CallTelemetry.Bytes
import CallTelemetry.Application
import CallTelemetry.TransactionId

/-! Spans: the work of one agent on one transaction, with the operations inside it as events. -/
namespace CallTelemetry.Trace

inductive TagValue where
  | null
  | text (s : String)
  | bool (b : Bool)
  | int (x : Int32)
  | long (x : Int64)
  | short (x : Int16)
  /-- The bits of a floating-point number. -/
  | double (bits : UInt64)
  | binary (b : Bytes)
  | byte (x : UInt8)
  | intText (int : Int32) (text : Option String)
  | textText (first second : Option String)
  | numbersText (long : Int64) (int1 int2 : Int32) (byte1 byte2 : UInt8) (text : Option String)
  deriving DecidableEq

def TagValue.toJson : TagValue → Json
  | null => .text "Null"
  | text s => .object [("String", .text s)]
  | bool b => .object [("Bool", .bool b)]
  | int x => .object [("Int", .ofInt32 x)]
  | long x => .object [("Long", .ofInt64 x)]
  | short x => .object [("Short", .ofInt16 x)]
  | double bits => .object [("Double", .text (Bytes.toHex (Bytes.ofNat 8 bits.toNat)))]
  | binary b => .object [("Bytes", .array (b.map fun byte => .int byte.toNat))]
  | byte x => .object [("Byte", .int x.toNat)]
  | intText n s =>
    .object [("IntString", .object [("int_value", .ofInt32 n), ("string_value", .textOrNull s)])]
  | textText first second =>
    .object [("StringString", .object [("string_value1", .textOrNull first),
      ("string_value2", .textOrNull second)])]
  | numbersText n n1 n2 b1 b2 s =>
    .object [("LongIntIntByteByteString", .object [("long_value", .ofInt64 n),
      ("int_value1", .ofInt32 n1), ("int_value2", .ofInt32 n2), ("byte_value1", .int b1.toNat),
      ("byte_value2", .int b2.toNat), ("string_value", .textOrNull s)])]

structure Tag where
  key : Int32
  value : TagValue
  deriving DecidableEq

def Tag.toJson (t : Tag) : Json := .object [("key", .ofInt32 t.key), ("value", t.value.toJson)]

structure ExceptionInfo where
  id : Int32
  message : Option String
  deriving DecidableEq

def ExceptionInfo.toJson (e : ExceptionInfo) : Json :=
  .object [("id", .ofInt32 e.id), ("message", .textOrNull e.message)]

/-- An operation inside a span. Its start is counted from the start of the span. -/
structure SpanEvent where
  sequence : Int32
  startElapsed : Int32
  endElapsed : Int32
  depth : Int32
  serviceType : ServiceType
  apiId : Int32
  endPoint : Option String
  destinationId : Option String
  nextSpanId : Option Int64
  nextAsyncId : Option Int32
  tags : List Tag
  exceptionInfo : Option ExceptionInfo
  deriving DecidableEq

namespace SpanEvent

def hasException (e : SpanEvent) : Bool := e.exceptionInfo.isSome

def toJson (e : SpanEvent) : Json :=
  .object [("sequence", .ofInt32 e.sequence), ("startElapsed", .ofInt32 e.startElapsed),
    ("endElapsed", .ofInt32 e.endElapsed), ("depth", .ofInt32 e.depth),
    ("serviceType", .text e.serviceType.name), ("apiId", .ofInt32 e.apiId), ("rpc", .null),
    ("endPoint", .textOrNull e.endPoint), ("destinationId", .textOrNull e.destinationId),
    ("nextSpanId", .orNull .ofInt64 e.nextSpanId), ("nextAsyncId", .orNull .ofInt32 e.nextAsyncId),
    ("annotations", .array (e.tags.map Tag.toJson)),
    ("exceptionInfo", .orNull ExceptionInfo.toJson e.exceptionInfo)]

end SpanEvent

structure Span where
  transactionId : TransactionId
  agentId : String
  applicationName : String
  agentStartTime : Int64
  acceptTime : Int64
  spanId : Int64
  parentSpanId : Int64
  startTime : Int64
  elapsed : Int32
  serviceType : ServiceType
  applicationServiceType : ServiceType
  apiId : Int32
  rpc : Option String
  endPoint : Option String
  remoteAddr : Option String
  acceptorHost : Option String
  /-- The application that called, unless a user did. -/
  parent : Option Application
  flag : Int16
  errCode : Int32
  loggingTransactionInfo : UInt8
  exceptionInfo : Option ExceptionInfo
  tags : List Tag
  events : List SpanEvent
  deriving DecidableEq

namespace Span

def isRoot (s : Span) : Bool := s.parentSpanId == -1

def hasError (s : Span) : Bool := s.errCode != 0

def toJson (s : Span) : Json :=
  .object [("transactionId", s.transactionId.toJson), ("agentId", .text s.agentId),
    ("applicationName", .text s.applicationName), ("agentStartTime", .ofInt64 s.agentStartTime),
    ("collectorAcceptTime", .ofInt64 s.acceptTime), ("spanId", .ofInt64 s.spanId),
    ("parentSpanId", .ofInt64 s.parentSpanId), ("startTime", .ofInt64 s.startTime),
    ("elapsed", .ofInt32 s.elapsed), ("serviceType", .text s.serviceType.name),
    ("applicationServiceType", .text s.applicationServiceType.name), ("apiId", .ofInt32 s.apiId),
    ("rpc", .textOrNull s.rpc), ("endPoint", .textOrNull s.endPoint),
    ("remoteAddr", .textOrNull s.remoteAddr), ("acceptorHost", .textOrNull s.acceptorHost),
    ("parentApplicationName", .textOrNull (s.parent.map (·.name))),
    ("parentApplicationType", .textOrNull (s.parent.map (·.type.name))),
    ("flag", .ofInt16 s.flag), ("errCode", .ofInt32 s.errCode),
    ("loggingTransactionInfo", .int s.loggingTransactionInfo.toNat),
    ("exceptionInfo", .orNull ExceptionInfo.toJson s.exceptionInfo),
    ("annotations", .array (s.tags.map Tag.toJson)),
    ("spanEvents", .array (s.events.map SpanEvent.toJson))]

end Span

structure LocalAsyncId where
  asyncId : Int32
  sequence : Int32
  deriving DecidableEq

def LocalAsyncId.toJson (i : LocalAsyncId) : Json :=
  .object [("asyncId", .ofInt32 i.asyncId), ("sequence", .ofInt32 i.sequence)]

/-- More events of a span, which may come before or after it. -/
structure SpanChunk where
  transactionId : TransactionId
  agentId : String
  applicationName : String
  agentStartTime : Int64
  spanId : Int64
  keyTime : Int64
  endPoint : Option String
  applicationServiceType : ServiceType
  localAsyncId : Option LocalAsyncId
  events : List SpanEvent
  deriving DecidableEq

def SpanChunk.toJson (c : SpanChunk) : Json :=
  .object [("transactionId", c.transactionId.toJson), ("agentId", .text c.agentId),
    ("applicationName", .text c.applicationName), ("agentStartTime", .ofInt64 c.agentStartTime),
    ("spanId", .ofInt64 c.spanId), ("keyTime", .ofInt64 c.keyTime),
    ("endPoint", .textOrNull c.endPoint),
    ("applicationServiceType", .text c.applicationServiceType.name),
    ("localAsyncId", .orNull LocalAsyncId.toJson c.localAsyncId),
    ("spanEvents", .array (c.events.map SpanEvent.toJson))]

end CallTelemetry.Trace
