import CallTelemetry.Statistics.Column
import CallTelemetry.Storage.Store
import CallTelemetry.TimeWindow
import CallTelemetry.Topology.Links
import CallTelemetry.Topology.ResponseTime

/-! What the statistics tables tell of an application in a window of time. Rows and cells that
cannot be read are passed over, and an application whose name has no row key has no rows. -/
namespace CallTelemetry.Topology

open Statistics

/-- Where the tables are, and how their rows are salted. -/
structure Tables where
  space : String
  salting : Salting

namespace Query

def range? (a : Application) (w : TimeWindow) : Option (Bytes × Bytes) :=
  (RowKey.range a.name a.type.code w.range.first w.range.last).toOption

/-- Whether the tables have to be looked at. -/
def reads (a : Application) (w : TimeWindow) : Bool := (range? a w).isSome

def rowKey? (row : Row) : Option RowKey :=
  (RowError.unsalting row.key >>= RowKey.decode).toOption

def rows (s : Store) (t : Tables) (f : ColumnFamily) (a : Application) (w : TimeWindow) :
    Except StoreError (List (RowKey × Row)) :=
  match range? a w with
  | none => .ok []
  | some (start, stop) => do
    let found ← (t.salting.ranges start stop).mapM fun r => s.scan (f.tableIn t.space) r.1 r.2
    return found.flatten.filterMap fun row => (rowKey? row).map (·, row)

/-- The column and the count of a cell. -/
def cell? (decode : Bytes → Except RowError α) (cell : CellName × Bytes) : Option (α × Int64) := do
  let column ← (decode cell.1.qualifier).toOption
  let count ← Bytes.toCounter? cell.2
  return (column, count)

/-- The time under which a row is counted: its slot of the window, or, where all slots are taken
together, the first. Times are words, so that of a slot which begins before the least one wraps
around. -/
def linkTime (w : TimeWindow) (aggregated : Bool) (k : RowKey) : Int :=
  (Int64.ofInt (if aggregated then w.slotRange.first else w.refine k.slot)).toInt

def tallies (decode : Bytes → Except RowError α) (tally : α → Int → Int64 → Tally)
    (w : TimeWindow) (aggregated : Bool) (row : RowKey × Row) : List Tally :=
  (row.2.cells.entries.filterMap (cell? decode)).map fun (column, count) =>
    tally column (linkTime w aggregated row.1) count

def outboundTally (a : Application) (c : CalleeColumn) (time : Int) (count : Int64) : Tally :=
  ⟨⟨a, ⟨c.application, .ofCode c.type⟩⟩, c.agentId, c.host, time, c.slot, count⟩

def inboundTally (a : Application) (c : CallerColumn) (time : Int) (count : Int64) : Tally :=
  ⟨⟨⟨c.application, .ofCode c.type⟩, a⟩, c.application, c.host, time, c.slot, count⟩

/-- What an application called. -/
def outbound (s : Store) (t : Tables) (a : Application) (w : TimeWindow) (aggregated : Bool) :
    Except StoreError Links := do
  let rows ← rows s t .callerCounter a w
  return Links.addAll .empty
    (rows.flatMap (tallies CalleeColumn.decode (outboundTally a) w aggregated))

/-- Who called an application. -/
def inbound (s : Store) (t : Tables) (a : Application) (w : TimeWindow) (aggregated : Bool) :
    Except StoreError Links := do
  let rows ← rows s t .calleeCounter a w
  return Links.addAll .empty
    (rows.flatMap (tallies CallerColumn.decode (inboundTally a) w aggregated))

def addRow (a : Application) (times : SortedMap Int ResponseTime) (row : RowKey × Row) :
    SortedMap Int ResponseTime :=
  times.update row.1.slot (.empty a row.1.slot) fun r =>
    (row.2.cells.entries.filterMap (cell? ResponseColumn.decode)).foldl
      (fun r (column, count) => r.add column.agentId column.slot count) r

/-- The response times of an application, one for each minute that has a row, the oldest first. -/
def responses (s : Store) (t : Tables) (a : Application) (w : TimeWindow) :
    Except StoreError (List ResponseTime) := do
  let rows ← rows s t .selfCounter a w
  return (rows.foldl (addRow a) .empty).values

end Query

end CallTelemetry.Topology
