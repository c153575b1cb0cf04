import CallTelemetry.Metadata.Signature
import CallTelemetry.Monitor.Reading

/-! Metadata that a monitor has collected, by its key. -/
namespace CallTelemetry.Monitor

open Metadata

inductive LookupError where
  | row (error : RowError)
  | store (error : StoreError)
  deriving DecidableEq

def LookupError.message : LookupError → String
  | .row error => error.message
  | .store error => error.message

/-- All entries of a row; where there is no row there are none. -/
def lookUp (f : ColumnFamily)
    (entries : Bytes → List (CellName × Bytes) → Except RowError (List (Entry α))) (key : Key) :
    Reading LookupError (List (Entry α)) := do
  let m ← get
  let row ← ExceptT.mk (pure ((key.salted m.collector.salting).mapError .row))
  let found ← (read true fun t s => .ok (s.get? (f.tableIn t.space) row)).adapt LookupError.store
  match found with
  | some row => ExceptT.mk (pure ((entries row.key row.cells.entries).mapError .row))
  | none => return []

def apiMetadata : Key → Reading LookupError (List (Entry ApiSignature)) :=
  lookUp .apiMetadata apiEntries

def stringMetadata : Key → Reading LookupError (List (Entry String)) :=
  lookUp .stringMetadata textEntries

def sqlMetadata : Key → Reading LookupError (List (Entry String)) :=
  lookUp .sqlMetadata textEntries

end CallTelemetry.Monitor
