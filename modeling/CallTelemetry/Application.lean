import CallTelemetry.Json
import CallTelemetry.ServiceType

/-! Applications: a name together with the kind of service, since one name may serve several
kinds. -/
namespace CallTelemetry

structure Application where
  name : String
  type : ServiceType
  deriving DecidableEq

namespace Application

instance : Inhabited Application := ⟨⟨"", .undefined⟩⟩

/-- By name, then by the code of the type. -/
instance : Ord Application := ⟨compareLex (compareOn name) (compareOn type)⟩

instance : Std.TransOrd Application :=
  inferInstanceAs (Std.TransCmp (compareLex (compareOn name) (compareOn type)))

instance : Std.LawfulEqOrd Application where
  eq_of_compare {a b} h := by
    change compareLex _ _ a b = _ at h
    simp only [compareLex_eq_eq, compareOn, Std.LawfulEqOrd.compare_eq_iff_eq] at h
    cases a
    cases b
    simp_all

def render (a : Application) : String := a.name ++ "/" ++ a.type.name

def toMembers (a : Application) : List (String × Json) :=
  [("applicationName", .text a.name), ("serviceType", .text a.type.name),
    ("serviceTypeCode", .ofInt16 a.type.code)]

def toJson (a : Application) : Json := .object a.toMembers

end Application

end CallTelemetry
