import CallTelemetry.Proofs.Pending.Cells
import CallTelemetry.Proofs.Topology.Counting
import CallTelemetry.Statistics.Recording

/-! Records of the statistics. A record is a change of one column of a row, which counts in one slot;
a store keeps records if each of its cells holds what the records of that cell come to. -/
namespace CallTelemetry

/-- What a cell holds, if it is there and holds a word. -/
def Store.count? (s : Store) (c : Pending.Cell) : Option Int64 := (s.cell? c).bind Bytes.toCounter?

namespace Statistics

open Latency Pending

structure Record (κ : Type) where
  row : RowKey
  column : κ
  slot : Slot
  value : Int64

/-- Where the records of one side are written to. -/
structure Destination (κ : Type) where
  table : TableName
  family : Bytes
  salting : Salting
  encode : κ → Bytes

variable {κ : Type} [DecidableEq κ]

def Destination.place (d : Destination κ) (row : RowKey) (column : κ) : Cell :=
  ⟨d.table, d.salting.salted row.encode, d.family, d.encode column⟩

def Record.key (r : Record κ) : RowKey × κ := (r.row, r.column)

/-- The values of records, under their row and column. -/
def entries (l : List (Record κ)) : List ((RowKey × κ) × Int64) := l.map fun r => (r.key, r.value)

/-- What records come to in one cell, which counts in the slot. -/
def recorded (l : List (Record κ)) (key : RowKey × κ) (slot : Slot) : Int64 :=
  slot.amount (((entries l).filter fun e => e.1 = key).map (·.2))

/-- Whether a table holds what records come to, and nothing else. -/
structure Keeps (s : Store) (d : Destination κ) (l : List (Record κ)) : Prop where
  origin (c : Cell) : c.table = d.table → s.cell? c ≠ none → ∃ r ∈ l, d.place r.row r.column = c
  amounts : ∀ r ∈ l, r.slot.amount (s.count? (d.place r.row r.column)).toList =
    recorded l r.key r.slot

end Statistics

end CallTelemetry
