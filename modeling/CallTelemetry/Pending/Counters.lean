import CallTelemetry.Pending.Cell

/-! Additions to counter cells that wait to be written. A cell that is held already always
accepts, a new one only if it fits. Draining first takes the value out of each listed cell and then
removes the listed cells that are still zero, so an addition that comes between the two stays for
the next drain. -/
namespace CallTelemetry.Pending

/-- The number of cells is kept beside them, so that admission does not count. -/
structure Counters where
  cells : SortedMap Cell Int64
  count : Nat
  deriving DecidableEq

namespace Counters

def empty : Counters := ⟨.empty, 0⟩

def add (limit : Option Nat) (c : Counters) (cell : Cell) (delta : Int64) : Bool × Counters :=
  match c.cells.get? cell with
  | some value => (true, { c with cells := c.cells.insert cell (value + delta) })
  | none =>
    if fits limit c.count then (true, ⟨c.cells.insert cell delta, c.count + 1⟩)
    else (false, c)

/-- Takes the value out of a cell, which stays. -/
def take (c : Counters) (cell : Cell) : Int64 × Counters :=
  match c.cells.get? cell with
  | some value => (value, { c with cells := c.cells.insert cell 0 })
  | none => (0, c)

/-- Removes a cell unless it holds something. -/
def sweep (c : Counters) (cell : Cell) : Counters :=
  if c.cells.get? cell = some 0 then ⟨c.cells.erase cell, c.count - 1⟩ else c

/-- Takes the values out of the listed cells, and keeps those that are not zero. -/
def takeAll : List Cell → Counters → List (Cell × Int64) × Counters
  | [], c => ([], c)
  | cell :: rest, c =>
    let (value, c) := c.take cell
    let (taken, c) := takeAll rest c
    (if value = 0 then taken else (cell, value) :: taken, c)

def drain (c : Counters) : List (Cell × Int64) × Counters :=
  let listed := c.cells.keys
  let (taken, c) := takeAll listed c
  (taken, listed.foldl sweep c)

end Counters

end CallTelemetry.Pending
