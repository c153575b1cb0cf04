import CallTelemetry.Pending.Cell
import CallTelemetry.Storage.Salting
import CallTelemetry.Storage.Store

/-! Gathering drained additions into one increment per row and family, row by row in the order of
the keys without salt, with the columns of a row in order. -/
namespace CallTelemetry.Pending

def compareAdditions : Cell × Int64 → Cell × Int64 → Ordering :=
  compareLex (compareOn (·.1)) (compareOn (·.2))

/-- Puts an addition before those of its own row, or before those of later rows. -/
def gather (addition : Cell × Int64) (rows : List (TableName × Increment)) :
    List (TableName × Increment) :=
  let cell := addition.1
  let column := (cell.column, addition.2)
  match rows with
  | (table, row) :: rest =>
    if table = cell.table ∧ row.row = cell.row ∧ row.family = cell.family then
      (table, { row with columns := column :: row.columns }) :: rest
    else (cell.table, ⟨cell.row, cell.family, [column]⟩) :: rows
  | [] => [(cell.table, ⟨cell.row, cell.family, [column]⟩)]

def byTable (row : TableName × Increment) (tables : List (TableName × List Increment)) :
    List (TableName × List Increment) :=
  match tables with
  | (table, rows) :: rest =>
    if table = row.1 then (table, row.2 :: rows) :: rest else (row.1, [row.2]) :: tables
  | [] => [(row.1, [row.2])]

def merge (s : Salting) (additions : List (Cell × Int64)) : List (TableName × List Increment) :=
  let sorted := additions.mergeSort fun a b => (compareAdditions a b).isLE
  let rows := sorted.foldr gather []
  (rows.map fun (table, row) => (table, { row with row := s.salted row.row })).foldr byTable []

end CallTelemetry.Pending
