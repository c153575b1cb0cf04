import CallTelemetry.Identifier
import CallTelemetry.Storage.RowError

/-! Row keys of metadata: what one run of an agent registered under a number. -/
namespace CallTelemetry.Metadata

structure Key where
  agentId : String
  agentStartTime : Int64
  id : Int32
  deriving DecidableEq

namespace Key

/-- An agent identifier that does not fit its field has no key. -/
def encode (k : Key) : Except RowError Bytes :=
  if Identifier.maxLength < k.agentId.utf8ByteSize then .error (.agentIdTooLong k.agentId)
  else
    .ok (Bytes.padded Identifier.maxLength k.agentId ++ Bytes.ofInt64 k.agentStartTime ++
      Bytes.ofInt32 k.id)

def salted (s : Salting) (k : Key) : Except RowError Bytes := k.encode.map s.salted

def reader : Reader Key := do
  let agentId ← Reader.padded Identifier.maxLength
  let agentStartTime ← Reader.int64
  let id ← Reader.int32
  return { agentId, agentStartTime, id }

def decode (bytes : Bytes) : Except RowError Key := RowError.reading reader bytes

end Key

end CallTelemetry.Metadata
