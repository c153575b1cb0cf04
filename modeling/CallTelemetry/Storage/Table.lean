import CallTelemetry.Bytes

/-! Names of tables, and the column families that hold metadata and statistics. -/
namespace CallTelemetry

structure TableName where
  text : String
  deriving DecidableEq

namespace TableName

instance : Ord TableName := ⟨compareOn text⟩

instance : Std.TransOrd TableName := inferInstanceAs (Std.TransCmp (compareOn text))

instance : Std.LawfulEqOrd TableName where
  eq_of_compare {a b} h := by
    cases a
    cases b
    exact congrArg _ (Std.LawfulEqOrd.eq_of_compare h)

def qualified (space qualifier : String) : TableName := ⟨space ++ ":" ++ qualifier⟩

end TableName

structure ColumnFamily where
  table : String
  family : Bytes
  deriving DecidableEq

namespace ColumnFamily

def apiMetadata : ColumnFamily := ⟨"ApiMetaData", Bytes.ofText "Api"⟩
def stringMetadata : ColumnFamily := ⟨"StringMetaData", Bytes.ofText "Str"⟩
def sqlMetadata : ColumnFamily := ⟨"SqlMetaData", Bytes.ofText "Sql"⟩

/-- Rows of callers, columns of what they called. -/
def callerCounter : ColumnFamily := ⟨"ApplicationMapStatisticsCaller_Ver2", Bytes.ofText "C"⟩

/-- Rows of callees, columns of who called them. -/
def calleeCounter : ColumnFamily := ⟨"ApplicationMapStatisticsCallee_Ver2", Bytes.ofText "C"⟩

/-- Rows of applications, columns of their agents' response times. -/
def selfCounter : ColumnFamily := ⟨"ApplicationMapStatisticsSelf_Ver2", Bytes.ofText "C"⟩

def tableIn (f : ColumnFamily) (space : String) : TableName := .qualified space f.table

end ColumnFamily

/-- The namespace of tables where none is configured. -/
def defaultNamespace : String := "default"

end CallTelemetry
