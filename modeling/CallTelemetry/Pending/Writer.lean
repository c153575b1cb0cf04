import CallTelemetry.Batch
import CallTelemetry.Pending.Counters
import CallTelemetry.Pending.Maxima
import CallTelemetry.Pending.Merge
import CallTelemetry.Pending.Report
import CallTelemetry.Settings.Collector

/-! Writers of the counters of one table. A batched writer gathers changes until a flush turns them
into requests; what a failed request held goes back to the pending cells as far as they have room.
A direct writer turns each change into a request of its own. Requests are only named here: carrying
them out, and telling the writer how each one ended, is up to whoever runs the writer. -/
namespace CallTelemetry.Pending

/-- The bytes of a row key, which as a rule can be laid out behind free bytes for a salt. -/
structure RowImage where
  key : Bytes
  leavesRoom : Bool
  deriving DecidableEq

def RowImage.behind (r : RowImage) (free : Nat) : Bytes :=
  if r.leavesRoom then List.replicate free 0 ++ r.key else r.key

inductive Change where
  | add (delta : Int64)
  | raise (value : Int64)
  deriving DecidableEq

structure Mutation where
  row : RowImage
  column : Bytes
  change : Change
  deriving DecidableEq

/-- Which of the two kinds of pending cells a flush writes. -/
inductive Flushing where
  | counters
  | maxima
  deriving DecidableEq

structure BatchedWriter where
  table : TableName
  family : Bytes
  salting : Salting
  batchSize : Nat
  counterLimit : Option Nat
  maximumLimit : Option Nat
  counters : Counters
  maxima : Maxima
  report : Report

namespace BatchedWriter

def cell (w : BatchedWriter) (row column : Bytes) : Cell := ⟨w.table, row, w.family, column⟩

/-- Adds to a pending counter; a refusal is reported. -/
def increment (w : BatchedWriter) (cell : Cell) (delta : Int64) : Bool × BatchedWriter :=
  match w.counters.add w.counterLimit cell delta with
  | (true, counters) => (true, { w with counters })
  | (false, _) => (false, { w with report := w.report.addReject })

/-- Raises a pending maximum; a refusal is reported. -/
def raise (w : BatchedWriter) (cell : Cell) (value : Int64) : Bool × BatchedWriter :=
  match w.maxima.raise w.maximumLimit cell value with
  | (true, maxima) => (true, { w with maxima })
  | (false, _) => (false, { w with report := w.report.addReject })

/-- Puts back an addition that could not be written; cells admitted meanwhile keep their place. -/
def restoreIncrement (w : BatchedWriter) (cell : Cell) (delta : Int64) : Bool × BatchedWriter :=
  match w.counters.add w.counterLimit cell delta with
  | (true, counters) => (true, { w with counters })
  | (false, _) => (false, { w with report := w.report.addRestoreReject 1 })

def restoreMaximum (w : BatchedWriter) (cell : Cell) (value : Int64) : Bool × BatchedWriter :=
  match w.maxima.raise w.maximumLimit cell value with
  | (true, maxima) => (true, { w with maxima })
  | (false, _) => (false, { w with report := w.report.addRestoreReject 1 })

def mutate (w : BatchedWriter) (m : Mutation) : BatchedWriter :=
  let cell := w.cell (m.row.behind 0) m.column
  match m.change with
  | .add delta => (w.increment cell delta).2
  | .raise value => (w.raise cell value).2

/-- The pending additions, which start anew. A limited writer forgets its recent refusals. -/
def drainCounters (w : BatchedWriter) : List (Cell × Int64) × BatchedWriter :=
  let report := if w.counterLimit.isSome then w.report.takeRecent.2 else w.report
  let (drained, counters) := w.counters.drain
  (drained, { w with counters, report })

def drainMaxima (w : BatchedWriter) : List (Cell × Int64) × BatchedWriter :=
  let (drained, maxima) := w.maxima.drain
  (drained, { w with maxima })

/-- The requests that write drained additions, each of at most `batchSize` rows. -/
def incrementRequests (w : BatchedWriter) (drained : List (Cell × Int64)) : List Request :=
  (merge w.salting drained).flatMap fun (table, rows) =>
    (chunks w.batchSize rows).map (.increments table)

def maximumRequest (w : BatchedWriter) (drained : Cell × Int64) : Request :=
  let (cell, value) := drained
  .maximum cell.table ⟨w.salting.salted cell.row, ⟨cell.family, cell.column⟩, value⟩

/-- Begins a flush: the pending cells become requests. -/
def beginFlush (w : BatchedWriter) : Flushing → List Request × BatchedWriter
  | .counters => let (drained, w) := w.drainCounters; (w.incrementRequests drained, w)
  | .maxima => let (drained, w) := w.drainMaxima; (drained.map w.maximumRequest, w)

def restoreColumn (table : TableName) (row : Bytes) (w : BatchedWriter)
    (column : Bytes × Int64) : BatchedWriter :=
  (w.restoreIncrement ⟨table, row, w.family, column.1⟩ column.2).2

def restoreRow (table : TableName) (w : BatchedWriter) (i : Increment) : BatchedWriter :=
  match Salting.unsalted i.row with
  | .ok row => i.columns.foldl (restoreColumn table row) w
  | .error _ => w

def restoreUpdate (table : TableName) (w : BatchedWriter) (m : Maximum) : BatchedWriter :=
  match Salting.unsalted m.row with
  | .ok row => (w.restoreMaximum ⟨table, row, w.family, m.name.qualifier⟩ m.value).2
  | .error _ => w

/-- Takes notice of how a request of a flush ended. Written rows are reported at once, written
maxima at the end of their flush. -/
def settle (w : BatchedWriter) (r : Request) (outcome : Except StoreError Unit) : BatchedWriter :=
  match r, outcome with
  | .increments _ rows, .ok () => { w with report := w.report.addFlushed rows.length }
  | .increments table rows, .error _ =>
    let report := w.report.addFailure (Increment.cellCount rows)
    rows.foldl (restoreRow table) { w with report }
  | .maximum table update, .error _ =>
    restoreUpdate table { w with report := w.report.addFailure 1 } update
  | _, _ => w

/-- Ends a flush of maxima that had something to write. -/
def endMaxima (w : BatchedWriter) (written : Nat) : BatchedWriter :=
  { w with report := w.report.addFlushed written }

end BatchedWriter

/-- The timeout is in milliseconds. -/
structure DirectWriter where
  table : TableName
  family : Bytes
  salting : Salting
  timeout : Nat
  report : Report

namespace DirectWriter

def standardTimeout : Nat := 100

/-- The request that writes a change. A row key without room for a salt loses its first byte to it;
an empty one makes no request. -/
def request? (w : DirectWriter) (m : Mutation) : Option Request :=
  match w.salting.writeSalt (m.row.behind Salting.width) with
  | .error _ => none
  | .ok row =>
    some (match m.change with
      | .add delta => .increments w.table [⟨row, w.family, [(m.column, delta)]⟩]
      | .raise value => .maximum w.table ⟨row, ⟨w.family, m.column⟩, value⟩)

end DirectWriter

inductive Writer where
  | batched (w : BatchedWriter)
  | direct (w : DirectWriter)

namespace Writer

def report : Writer → Report
  | batched w => w.report
  | direct w => w.report

def batchedOver (f : ColumnFamily) (space : String) (salting : Salting) (batchSize : Nat)
    (counterLimit maximumLimit : Option Nat) : Writer :=
  .batched ⟨f.tableIn space, f.family, salting, batchSize, counterLimit, maximumLimit, .empty,
    .empty, .empty⟩

def directOver (f : ColumnFamily) (space : String) (salting : Salting) (timeout : Nat) : Writer :=
  .direct ⟨f.tableIn space, f.family, salting, timeout, .empty⟩

/-- A writer as the settings ask for. The limit on counters is the caller's choice, that on maxima
is the same for all writers. -/
def ofSettings (b : Settings.Bulk) (f : ColumnFamily) (space : String) (salting : Salting)
    (counterLimit : Nat) : Writer :=
  if b.enable then
    batchedOver f space salting b.batchSize (some counterLimit) (some b.calleeLimitSize)
  else directOver f space salting DirectWriter.standardTimeout

end Writer

end CallTelemetry.Pending
