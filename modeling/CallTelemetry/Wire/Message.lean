import CallTelemetry.Wire.Schema

/-! The messages that agents send. -/
namespace CallTelemetry.Wire

open CallTelemetry.Wire.Field Scalar

/-- The agent is empty if the transaction began on the sending agent. -/
structure TransactionRef where
  agentId : String := ""
  agentStartTime : Int64 := 0
  sequence : Int64 := 0
  deriving DecidableEq

def TransactionRef.schema : Schema TransactionRef := ⟨{}, false, [
  plain text 1 "agent_id" (·.agentId) fun v m => { m with agentId := v },
  plain int64 2 "agent_start_time" (·.agentStartTime) fun v m => { m with agentStartTime := v },
  plain int64 3 "sequence" (·.sequence) fun v m => { m with sequence := v }]⟩

structure ParentInfo where
  applicationName : String := ""
  applicationType : Int32 := 0
  acceptorHost : String := ""
  deriving DecidableEq

def ParentInfo.schema : Schema ParentInfo := ⟨{}, false, [
  plain text 1 "parent_application_name" (·.applicationName) fun v m =>
    { m with applicationName := v },
  plain int32 2 "parent_application_type" (·.applicationType) fun v m =>
    { m with applicationType := v },
  plain text 3 "acceptor_host" (·.acceptorHost) fun v m => { m with acceptorHost := v }]⟩

structure AcceptEvent where
  rpc : String := ""
  endPoint : String := ""
  remoteAddr : String := ""
  parentInfo : Option ParentInfo := none
  deriving DecidableEq

def AcceptEvent.schema : Schema AcceptEvent := ⟨{}, false, [
  plain text 1 "rpc" (·.rpc) fun v m => { m with rpc := v },
  plain text 2 "end_point" (·.endPoint) fun v m => { m with endPoint := v },
  plain text 3 "remote_addr" (·.remoteAddr) fun v m => { m with remoteAddr := v },
  message ParentInfo.schema 4 "parent_info" (·.parentInfo) fun v m =>
    { m with parentInfo := some v }]⟩

structure MessageEvent where
  nextSpanId : Int64 := 0
  endPoint : String := ""
  destinationId : String := ""
  deriving DecidableEq

def MessageEvent.schema : Schema MessageEvent := ⟨{}, false, [
  plain int64 1 "next_span_id" (·.nextSpanId) fun v m => { m with nextSpanId := v },
  plain text 2 "end_point" (·.endPoint) fun v m => { m with endPoint := v },
  plain text 3 "destination_id" (·.destinationId) fun v m => { m with destinationId := v }]⟩

/-- What an event leads to, if its kind is known. -/
structure NextEvent where
  messageEvent : Option MessageEvent := none
  deriving DecidableEq

def NextEvent.schema : Schema NextEvent := ⟨{}, true, [
  message MessageEvent.schema 1 "message_event" (·.messageEvent) fun v m =>
    { m with messageEvent := some v }]⟩

structure IntText where
  int : Int32 := 0
  text : Option String := none
  deriving DecidableEq

def IntText.schema : Schema IntText := ⟨{}, false, [
  plain int32 1 "int_value" (·.int) fun v m => { m with int := v },
  maybe Scalar.text 2 "string_value" (·.text) fun v m => { m with text := some v }]⟩

structure TextText where
  first : Option String := none
  second : Option String := none
  deriving DecidableEq

def TextText.schema : Schema TextText := ⟨{}, false, [
  maybe Scalar.text 1 "string_value1" (·.first) fun v m => { m with first := some v },
  maybe Scalar.text 2 "string_value2" (·.second) fun v m => { m with second := some v }]⟩

/-- Two numbers of 32 bits and two bytes beside a long number and a text. -/
structure NumbersText where
  long : Int64 := 0
  int1 : Int32 := 0
  int2 : Int32 := 0
  byte1 : Int32 := 0
  byte2 : Int32 := 0
  text : Option String := none
  deriving DecidableEq

def NumbersText.schema : Schema NumbersText := ⟨{}, false, [
  plain int64 1 "long_value" (·.long) fun v m => { m with long := v },
  plain int32 2 "int_value1" (·.int1) fun v m => { m with int1 := v },
  plain int32 3 "int_value2" (·.int2) fun v m => { m with int2 := v },
  plain sint32 4 "byte_value1" (·.byte1) fun v m => { m with byte1 := v },
  plain sint32 5 "byte_value2" (·.byte2) fun v m => { m with byte2 := v },
  maybe Scalar.text 6 "string_value" (·.text) fun v m => { m with text := some v }]⟩

inductive TagContent where
  | text (s : String)
  | bool (b : Bool)
  | int (x : Int32)
  | long (x : Int64)
  | short (x : Int32)
  | double (bits : UInt64)
  | binary (b : Bytes)
  | byte (x : Int32)
  | intText (m : IntText)
  | textText (m : TextText)
  | numbersText (m : NumbersText)
  deriving DecidableEq

structure TagValue where
  content : Option TagContent := none
  deriving DecidableEq

namespace TagValue

def text? (v : TagValue) : Option String := match v.content with
  | some (.text s) => some s
  | _ => none

def bool? (v : TagValue) : Option Bool := match v.content with
  | some (.bool b) => some b
  | _ => none

def int? (v : TagValue) : Option Int32 := match v.content with
  | some (.int x) => some x
  | _ => none

def long? (v : TagValue) : Option Int64 := match v.content with
  | some (.long x) => some x
  | _ => none

def short? (v : TagValue) : Option Int32 := match v.content with
  | some (.short x) => some x
  | _ => none

def double? (v : TagValue) : Option UInt64 := match v.content with
  | some (.double bits) => some bits
  | _ => none

def binary? (v : TagValue) : Option Bytes := match v.content with
  | some (.binary b) => some b
  | _ => none

def byte? (v : TagValue) : Option Int32 := match v.content with
  | some (.byte x) => some x
  | _ => none

def intText? (v : TagValue) : Option IntText := match v.content with
  | some (.intText m) => some m
  | _ => none

def textText? (v : TagValue) : Option TextText := match v.content with
  | some (.textText m) => some m
  | _ => none

def numbersText? (v : TagValue) : Option NumbersText := match v.content with
  | some (.numbersText m) => some m
  | _ => none

def schema : Schema TagValue := ⟨{}, true, [
  maybe Scalar.text 1 "string" text? fun v _ => ⟨some (.text v)⟩,
  maybe boolean 2 "bool" bool? fun v _ => ⟨some (.bool v)⟩,
  maybe int32 3 "int" int? fun v _ => ⟨some (.int v)⟩,
  maybe int64 4 "long" long? fun v _ => ⟨some (.long v)⟩,
  maybe sint32 5 "short" short? fun v _ => ⟨some (.short v)⟩,
  maybe Scalar.double 6 "double" double? fun v _ => ⟨some (.double v)⟩,
  maybe Scalar.binary 7 "binary" binary? fun v _ => ⟨some (.binary v)⟩,
  maybe sint32 8 "byte" byte? fun v _ => ⟨some (.byte v)⟩,
  message IntText.schema 9 "int_string" intText? fun v _ => ⟨some (.intText v)⟩,
  message TextText.schema 10 "string_string" textText? fun v _ => ⟨some (.textText v)⟩,
  message NumbersText.schema 11 "long_int_int_byte_byte_string" numbersText? fun v _ =>
    ⟨some (.numbersText v)⟩]⟩

end TagValue

structure Tag where
  key : Int32 := 0
  value : Option TagValue := none
  deriving DecidableEq

def Tag.schema : Schema Tag := ⟨{}, false, [
  plain int32 1 "key" (·.key) fun v m => { m with key := v },
  message TagValue.schema 2 "value" (·.value) fun v m => { m with value := some v }]⟩

/-- A depth of zero repeats the depth of the event before, and the start is counted from the start
of the event before. -/
structure SpanEvent where
  sequence : Int32 := 0
  depth : Int32 := 0
  startElapsed : Int32 := 0
  endElapsed : Int32 := 0
  serviceType : Int32 := 0
  tags : List Tag := []
  apiId : Int32 := 0
  exceptionInfo : Option IntText := none
  nextEvent : Option NextEvent := none
  asyncEvent : Int32 := 0
  deriving DecidableEq

def SpanEvent.schema : Schema SpanEvent := ⟨{}, false, [
  plain int32 1 "sequence" (·.sequence) fun v m => { m with sequence := v },
  plain int32 2 "depth" (·.depth) fun v m => { m with depth := v },
  plain int32 3 "start_elapsed" (·.startElapsed) fun v m => { m with startElapsed := v },
  plain int32 4 "end_elapsed" (·.endElapsed) fun v m => { m with endElapsed := v },
  plain int32 5 "service_type" (·.serviceType) fun v m => { m with serviceType := v },
  repeated Tag.schema 6 "annotation" (·.tags) fun v m => { m with tags := v },
  plain int32 10 "api_id" (·.apiId) fun v m => { m with apiId := v },
  message IntText.schema 11 "exception_info" (·.exceptionInfo) fun v m =>
    { m with exceptionInfo := some v },
  message NextEvent.schema 12 "next_event" (·.nextEvent) fun v m => { m with nextEvent := some v },
  plain int32 13 "async_event" (·.asyncEvent) fun v m => { m with asyncEvent := v }]⟩

structure Span where
  version : Int32 := 0
  transactionId : Option TransactionRef := none
  spanId : Int64 := 0
  parentSpanId : Int64 := 0
  startTime : Int64 := 0
  elapsed : Int32 := 0
  apiId : Int32 := 0
  serviceType : Int32 := 0
  acceptEvent : Option AcceptEvent := none
  tags : List Tag := []
  flag : Int32 := 0
  err : Int32 := 0
  spanEvents : List SpanEvent := []
  exceptionInfo : Option IntText := none
  applicationServiceType : Int32 := 0
  loggingTransactionInfo : Int32 := 0
  deriving DecidableEq

def Span.schema : Schema Span := ⟨{}, false, [
  plain int32 1 "version" (·.version) fun v m => { m with version := v },
  message TransactionRef.schema 2 "transaction_id" (·.transactionId) fun v m =>
    { m with transactionId := some v },
  plain fixed64 3 "span_id" (·.spanId) fun v m => { m with spanId := v },
  plain fixed64 4 "parent_span_id" (·.parentSpanId) fun v m => { m with parentSpanId := v },
  plain int64 5 "start_time" (·.startTime) fun v m => { m with startTime := v },
  plain int32 6 "elapsed" (·.elapsed) fun v m => { m with elapsed := v },
  plain int32 7 "api_id" (·.apiId) fun v m => { m with apiId := v },
  plain int32 8 "service_type" (·.serviceType) fun v m => { m with serviceType := v },
  message AcceptEvent.schema 9 "accept_event" (·.acceptEvent) fun v m =>
    { m with acceptEvent := some v },
  repeated Tag.schema 10 "annotation" (·.tags) fun v m => { m with tags := v },
  plain int32 11 "flag" (·.flag) fun v m => { m with flag := v },
  plain sint32 12 "err" (·.err) fun v m => { m with err := v },
  repeated SpanEvent.schema 13 "span_event" (·.spanEvents) fun v m => { m with spanEvents := v },
  message IntText.schema 14 "exception_info" (·.exceptionInfo) fun v m =>
    { m with exceptionInfo := some v },
  plain int32 15 "application_service_type" (·.applicationServiceType) fun v m =>
    { m with applicationServiceType := v },
  plain int32 16 "logging_transaction_info" (·.loggingTransactionInfo) fun v m =>
    { m with loggingTransactionInfo := v }]⟩

structure LocalAsyncId where
  asyncId : Int32 := 0
  sequence : Int32 := 0
  deriving DecidableEq

def LocalAsyncId.schema : Schema LocalAsyncId := ⟨{}, false, [
  plain int32 1 "async_id" (·.asyncId) fun v m => { m with asyncId := v },
  plain int32 2 "sequence" (·.sequence) fun v m => { m with sequence := v }]⟩

structure SpanChunk where
  version : Int32 := 0
  transactionId : Option TransactionRef := none
  spanId : Int64 := 0
  endPoint : String := ""
  spanEvents : List SpanEvent := []
  applicationServiceType : Int32 := 0
  keyTime : Int64 := 0
  localAsyncId : Option LocalAsyncId := none
  deriving DecidableEq

def SpanChunk.schema : Schema SpanChunk := ⟨{}, false, [
  plain int32 1 "version" (·.version) fun v m => { m with version := v },
  message TransactionRef.schema 2 "transaction_id" (·.transactionId) fun v m =>
    { m with transactionId := some v },
  plain fixed64 3 "span_id" (·.spanId) fun v m => { m with spanId := v },
  plain text 4 "end_point" (·.endPoint) fun v m => { m with endPoint := v },
  repeated SpanEvent.schema 5 "span_event" (·.spanEvents) fun v m => { m with spanEvents := v },
  plain int32 6 "application_service_type" (·.applicationServiceType) fun v m =>
    { m with applicationServiceType := v },
  plain int64 7 "key_time" (·.keyTime) fun v m => { m with keyTime := v },
  message LocalAsyncId.schema 8 "local_async_id" (·.localAsyncId) fun v m =>
    { m with localAsyncId := some v }]⟩

structure ApiMetadata where
  apiId : Int32 := 0
  apiInfo : String := ""
  line : Int32 := 0
  methodType : Int32 := 0
  location : String := ""
  deriving DecidableEq

def ApiMetadata.schema : Schema ApiMetadata := ⟨{}, false, [
  plain int32 1 "api_id" (·.apiId) fun v m => { m with apiId := v },
  plain text 2 "api_info" (·.apiInfo) fun v m => { m with apiInfo := v },
  plain int32 3 "line" (·.line) fun v m => { m with line := v },
  plain int32 4 "method_type" (·.methodType) fun v m => { m with methodType := v },
  plain text 5 "location" (·.location) fun v m => { m with location := v }]⟩

structure StringMetadata where
  stringId : Int32 := 0
  value : String := ""
  deriving DecidableEq

def StringMetadata.schema : Schema StringMetadata := ⟨{}, false, [
  plain int32 1 "string_id" (·.stringId) fun v m => { m with stringId := v },
  plain text 2 "string_value" (·.value) fun v m => { m with value := v }]⟩

structure SqlMetadata where
  sqlId : Int32 := 0
  sql : String := ""
  deriving DecidableEq

def SqlMetadata.schema : Schema SqlMetadata := ⟨{}, false, [
  plain int32 1 "sql_id" (·.sqlId) fun v m => { m with sqlId := v },
  plain text 2 "sql" (·.sql) fun v m => { m with sql := v }]⟩

/-- The identity of an agent, which begins each of its streams. -/
structure Handshake where
  agentId : String := ""
  agentName : String := ""
  applicationName : String := ""
  agentStartTime : Int64 := 0
  serviceType : Int32 := 0
  deriving DecidableEq

def Handshake.schema : Schema Handshake := ⟨{}, false, [
  plain text 1 "agent_id" (·.agentId) fun v m => { m with agentId := v },
  plain text 2 "agent_name" (·.agentName) fun v m => { m with agentName := v },
  plain text 3 "application_name" (·.applicationName) fun v m => { m with applicationName := v },
  plain int64 4 "agent_start_time" (·.agentStartTime) fun v m => { m with agentStartTime := v },
  plain int32 5 "service_type" (·.serviceType) fun v m => { m with serviceType := v }]⟩

end CallTelemetry.Wire
