import CallTelemetry.SortedMap

/-! What a writer reports of its work: rows and values written, and every change that it had to
drop. -/
namespace CallTelemetry.Pending

structure Report where
  flushAll : Nat
  incrementReject : Nat
  recentReject : Nat
  flushFailure : Nat
  restoreReject : Nat
  syncTimeout : Nat
  /-- Whether a flush was ever reported. -/
  flushed : Bool
  deriving DecidableEq

namespace Report

def empty : Report := ⟨0, 0, 0, 0, 0, 0, false⟩

def addFlushed (r : Report) (count : Nat) : Report :=
  { r with flushAll := r.flushAll + count, flushed := true }

def addReject (r : Report) : Report :=
  { r with incrementReject := r.incrementReject + 1, recentReject := r.recentReject + 1 }

def addFailure (r : Report) (count : Nat) : Report :=
  { r with flushFailure := r.flushFailure + count }

def addRestoreReject (r : Report) (count : Nat) : Report :=
  { r with restoreReject := r.restoreReject + count }

def addTimeout (r : Report) : Report := { r with syncTimeout := r.syncTimeout + 1 }

/-- The refusals since they were last taken. -/
def takeRecent (r : Report) : Nat × Report := (r.recentReject, { r with recentReject := 0 })

end Report

/-- The reports of several writers by name; asking for an unknown name begins a report. -/
abbrev Reports := SortedMap String Report

namespace Reports

def update (r : Reports) (name : String) (f : Report → Report) : Reports :=
  SortedMap.update r name Report.empty f

end Reports

end CallTelemetry.Pending
