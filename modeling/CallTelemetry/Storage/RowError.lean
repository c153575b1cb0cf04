import CallTelemetry.Bytes.Cursor
import CallTelemetry.Storage.Salting

/-! What can be wrong with the key or the columns of a row. -/
namespace CallTelemetry

inductive RowError where
  | read (error : ReadError)
  | salt (error : SaltError)
  | agentIdTooLong (id : String)
  | applicationNameTooLong (name : String)
  deriving DecidableEq

namespace RowError

def message : RowError → String
  | .read error => error.message
  | .salt error => error.message
  | .agentIdTooLong id => s!"agent id '{id}' exceeds the fixed row key width"
  | .applicationNameTooLong name =>
    s!"application name '{name}' exceeds the fixed row key width"

/-- Reads a value from the start of a byte string. -/
def reading (r : Reader α) (bytes : Bytes) : Except RowError α := (r.read bytes).mapError .read

def unsalting (key : Bytes) : Except RowError Bytes := (Salting.unsalted key).mapError .salt

end RowError

end CallTelemetry
