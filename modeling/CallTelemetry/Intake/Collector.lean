import CallTelemetry.Intake.Binding
import CallTelemetry.Statistics.Recording
import CallTelemetry.Timeline

/-! The collector takes frames in. A span or a chunk first changes the statistics and then joins its
trace; metadata is written to its table. A frame that is refused changes nothing but the number of
refused frames. -/
namespace CallTelemetry.Intake

open Statistics

inductive IntakeError where
  | handshakeRequired
  | handshake (error : HandshakeError)
  | bind (error : BindError)
  | row (error : RowError)
  | store (error : StoreError)
  deriving DecidableEq

def IntakeError.message : IntakeError → String
  | .handshakeRequired => "data frame received before the agent handshake"
  | .handshake error => "invalid handshake: " ++ error.detail
  | .bind error => error.message
  | .row error => error.message
  | .store error => error.message

structure Collector where
  timeline : Timeline
  archive : Trace.Archive
  space : String
  salting : Salting
  accepted : Nat
  rejected : Nat

namespace Collector

/-- The writers of the three statistics tables, by the names of their sides. -/
def writers (b : Settings.Bulk) (space : String) (salting : Salting) :
    List (String × Pending.Writer) :=
  Side.all.map fun side =>
    let limit := if side = .callee then b.calleeLimitSize else b.limitSize
    (side.name, .ofSettings b side.family space salting limit)

/-- In the order in which they are flushed. -/
def writerNames : List String := Side.all.map Side.name

def start (b : Settings.Bulk) (space : String) (salting : Salting) : Collector :=
  ⟨.start (writers b space salting), .empty, space, salting, 0, 0⟩

/-- Gives changes to the writers of their sides. -/
def record (c : Collector) (changes : List (Side × Pending.Mutation)) : Collector :=
  { c with timeline := changes.foldl (fun t e => t.mutate e.1.name e.2) c.timeline }

/-- Writes metadata and waits for the store. -/
def register (c : Collector) (f : ColumnFamily) (key : Metadata.Key) (payload : Bytes) :
    Except IntakeError Unit × Collector :=
  match key.salted c.salting with
  | .error e => (.error (.row e), c)
  | .ok row =>
    let name : CellName := ⟨f.family, Metadata.signatureQualifier⟩
    let (outcome, timeline) := c.timeline.request (.put (f.tableIn c.space) row name payload)
    (outcome.mapError .store, { c with timeline })

def addSpan (c : Collector) (a : Attribute) (m : Wire.Span) : Except IntakeError Unit × Collector :=
  match span a m with
  | .error e => (.error (.bind e), c)
  | .ok s =>
    let c := c.record (ofSpan s)
    (.ok (), { c with archive := c.archive.addSpan s })

def addChunk (c : Collector) (a : Attribute) (m : Wire.SpanChunk) :
    Except IntakeError Unit × Collector :=
  match spanChunk a m with
  | .error e => (.error (.bind e), c)
  | .ok s =>
    let c := c.record (ofChunk s a.acceptedTime)
    (.ok (), { c with archive := c.archive.addChunk s })

def take (c : Collector) (a : Attribute) : Wire.Frame → Except IntakeError Unit × Collector
  | .handshake _ => (.error (.handshake .alreadyCompleted), c)
  | .span m => c.addSpan a m
  | .spanChunk m => c.addChunk a m
  | .api m =>
    let e := apiMetadata a m
    c.register .apiMetadata e.key e.value.encode
  | .string m =>
    let e := stringMetadata a m
    c.register .stringMetadata e.key (Metadata.textPayload e.value)
  | .sql m =>
    let e := sqlMetadata a m
    c.register .sqlMetadata e.key (Metadata.textPayload e.value)

/-- Takes a frame from the agent that `a` describes, and counts it. -/
def handle (c : Collector) (a : Attribute) (f : Wire.Frame) : Except IntakeError Unit × Collector :=
  match c.take a f with
  | (.ok (), c) => (.ok (), { c with accepted := c.accepted + 1 })
  | (.error e, c) => (.error e, { c with rejected := c.rejected + 1 })

end Collector

end CallTelemetry.Intake
