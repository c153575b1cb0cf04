import CallTelemetry.Application

/-! Directed edges between applications, from the one that calls to the one that is called. -/
namespace CallTelemetry.Topology

structure Edge where
  source : Application
  target : Application
  deriving DecidableEq

namespace Edge

/-- By source, then by target. -/
instance : Ord Edge := ⟨compareLex (compareOn source) (compareOn target)⟩

instance : Std.TransOrd Edge :=
  inferInstanceAs (Std.TransCmp (compareLex (compareOn source) (compareOn target)))

instance : Std.LawfulEqOrd Edge where
  eq_of_compare {a b} h := by
    change compareLex _ _ a b = _ at h
    simp only [compareLex_eq_eq, compareOn, Std.LawfulEqOrd.compare_eq_iff_eq] at h
    cases a
    cases b
    simp_all

/-- Calls are classed as those of the target are. -/
def scheme (e : Edge) : Latency.Scheme := e.target.type.scheme

def render (e : Edge) : String := e.source.render ++ " -> " ++ e.target.render

end Edge

end CallTelemetry.Topology
