import CallTelemetry.SortedMap
import CallTelemetry.Storage.Table

/-! Addresses of the cells whose changes wait to be written. The row key carries no salt yet. -/
namespace CallTelemetry.Pending

structure Cell where
  table : TableName
  row : Bytes
  family : Bytes
  column : Bytes
  deriving DecidableEq

namespace Cell

def compareCells : Cell → Cell → Ordering :=
  compareLex (compareOn table) (compareLex (compareOn row)
    (compareLex (compareOn family) (compareOn column)))

/-- By table, row, family and column, so that the cells of a row lie together. -/
instance : Ord Cell := ⟨compareCells⟩

instance : Std.TransOrd Cell :=
  inferInstanceAs (Std.TransCmp (compareLex (compareOn table) (compareLex (compareOn row)
    (compareLex (compareOn family) (compareOn column)))))

instance : Std.LawfulEqOrd Cell where
  eq_of_compare {a b} h := by
    change compareLex _ (compareLex _ (compareLex _ _)) a b = _ at h
    simp only [compareLex_eq_eq, compareOn, Std.LawfulEqOrd.compare_eq_iff_eq] at h
    cases a
    cases b
    simp_all

end Cell

/-- Whether one more cell fits beside `count` cells. -/
def fits (limit : Option Nat) (count : Nat) : Bool :=
  match limit with
  | none => true
  | some limit => count < limit

end CallTelemetry.Pending
