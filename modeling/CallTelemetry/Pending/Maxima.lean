import CallTelemetry.Pending.Cell

/-! Largest values of cells that wait to be written. Draining removes every cell: writing a maximum
twice does no harm, so a cell that comes back meanwhile is simply written again. -/
namespace CallTelemetry.Pending

structure Maxima where
  cells : SortedMap Cell Int64
  count : Nat
  deriving DecidableEq

namespace Maxima

def empty : Maxima := ⟨.empty, 0⟩

def raise (limit : Option Nat) (m : Maxima) (cell : Cell) (value : Int64) : Bool × Maxima :=
  match m.cells.get? cell with
  | some held => (true, { m with cells := m.cells.insert cell (max held value) })
  | none =>
    if fits limit m.count then (true, ⟨m.cells.insert cell value, m.count + 1⟩)
    else (false, m)

/-- Removes a cell and answers what it held. -/
def take (m : Maxima) (cell : Cell) : Option Int64 × Maxima :=
  match m.cells.get? cell with
  | some value => (some value, ⟨m.cells.erase cell, m.count - 1⟩)
  | none => (none, m)

def takeAll : List Cell → Maxima → List (Cell × Int64) × Maxima
  | [], m => ([], m)
  | cell :: rest, m =>
    let (value, m) := m.take cell
    let (taken, m) := takeAll rest m
    ((value.map (cell, ·)).toList ++ taken, m)

def drain (m : Maxima) : List (Cell × Int64) × Maxima := takeAll m.cells.keys m

end Maxima

end CallTelemetry.Pending
