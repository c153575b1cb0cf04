import CallTelemetry.SortedMap
import CallTelemetry.Storage.Table

/-! A store of tables. Rows stand in the order of their keys and hold cells by family and
qualifier; a counter cell is a 64-bit word. A mutating request is counted when it arrives; when it
is carried out, after the latency of the store, it fails while failures are due. -/
namespace CallTelemetry

structure CellName where
  family : Bytes
  qualifier : Bytes
  deriving DecidableEq

namespace CellName

instance : Ord CellName := ⟨compareLex (compareOn family) (compareOn qualifier)⟩

instance : Std.TransOrd CellName :=
  inferInstanceAs (Std.TransCmp (compareLex (compareOn family) (compareOn qualifier)))

instance : Std.LawfulEqOrd CellName where
  eq_of_compare {a b} h := by
    change compareLex _ _ a b = _ at h
    simp only [compareLex_eq_eq, compareOn, Std.LawfulEqOrd.compare_eq_iff_eq] at h
    cases a
    cases b
    simp_all

end CellName

inductive StoreError where
  | unavailable (reason : String)
  | timeout
  | invalidRequest (reason : String)
  deriving DecidableEq

def StoreError.message : StoreError → String
  | .unavailable reason => s!"store unavailable: {reason}"
  | .timeout => "store request timed out"
  | .invalidRequest reason => s!"invalid request: {reason}"

abbrev Cells := SortedMap CellName Bytes

structure Row where
  key : Bytes
  cells : Cells
  deriving DecidableEq

/-- Additions to the columns of one row. -/
structure Increment where
  row : Bytes
  family : Bytes
  columns : List (Bytes × Int64)
  deriving DecidableEq

def Increment.cellCount (rows : List Increment) : Nat := rows.foldr (·.columns.length + ·) 0

/-- A value that a counter cell is raised to. -/
structure Maximum where
  row : Bytes
  name : CellName
  value : Int64
  deriving DecidableEq

inductive Request where
  | put (table : TableName) (row : Bytes) (name : CellName) (value : Bytes)
  | increments (table : TableName) (rows : List Increment)
  | maximum (table : TableName) (update : Maximum)
  deriving DecidableEq

structure Store where
  tables : SortedMap TableName (SortedMap Bytes Cells)
  requests : Nat
  appliedIncrements : Nat
  dueFailures : Nat
  latency : Option Nat
  deriving DecidableEq

namespace Store

def empty : Store := ⟨.empty, 0, 0, 0, none⟩

def rows (s : Store) (table : TableName) : SortedMap Bytes Cells := s.tables.getD table .empty

/-- Changes the cells of a row, which need not be there before. -/
def updateRow (s : Store) (table : TableName) (row : Bytes) (f : Cells → Cells) : Store :=
  { s with tables := s.tables.update table .empty fun rows => rows.update row .empty f }

/-- The value of a counter cell; an absent cell, or one that is no counter, is worth `fallback`. -/
def counter (cell : Option Bytes) (fallback : Int64) : Int64 :=
  (cell.bind Bytes.toCounter?).getD fallback

def addTo (family : Bytes) (cells : Cells) (column : Bytes × Int64) : Cells :=
  cells.alter ⟨family, column.1⟩ fun cell => some (Bytes.ofInt64 (counter cell 0 + column.2))

/-- Also a row without columns comes into being. -/
def increment (table : TableName) (s : Store) (i : Increment) : Store :=
  s.updateRow table i.row fun cells => i.columns.foldl (addTo i.family) cells

/-- A cell that is no counter keeps its bytes unless the value exceeds the least word. -/
def raise (table : TableName) (s : Store) (m : Maximum) : Store :=
  s.updateRow table m.row fun cells =>
    cells.alter m.name fun cell =>
      let stored := cell.getD (Bytes.ofInt64 Int64.minValue)
      let current := counter (some stored) Int64.minValue
      some (if current < m.value then Bytes.ofInt64 m.value else stored)

def apply (s : Store) : Request → Store
  | .put table row name value => s.updateRow table row fun cells => cells.insert name value
  | .increments table rows =>
    let s := rows.foldl (increment table) s
    { s with appliedIncrements := s.appliedIncrements + rows.length }
  | .maximum table update => s.raise table update

def failure : StoreError := .unavailable "injected failure"

def arrive (s : Store) : Store := { s with requests := s.requests + 1 }

/-- Carries out a request that has arrived, unless a failure is due. -/
def carryOut (s : Store) (r : Request) : Except StoreError Unit × Store :=
  match s.dueFailures with
  | 0 => (.ok (), s.apply r)
  | due + 1 => (.error failure, { s with dueFailures := due })

def get? (s : Store) (table : TableName) (row : Bytes) : Option Row :=
  ((s.rows table).get? row).map (⟨row, ·⟩)

def listing (b : Bytes) : String :=
  "[" ++ ", ".intercalate (b.map fun byte => toString byte.toNat) ++ "]"

/-- The rows from `start` up to, but without, `stop`. -/
def scan (s : Store) (table : TableName) (start stop : Bytes) : Except StoreError (List Row) :=
  if compare start stop = .gt then
    let start := listing start
    let stop := listing stop
    .error (.invalidRequest s!"scan start {start} is after stop {stop}")
  else
    .ok (((s.rows table).entries.filter fun e =>
      compare start e.1 != .gt && compare e.1 stop == .lt).map fun e => ⟨e.1, e.2⟩)

end Store

end CallTelemetry
