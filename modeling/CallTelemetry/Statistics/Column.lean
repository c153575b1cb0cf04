import CallTelemetry.Storage.RowError

/-! Columns of the statistics tables. A column names the other end of a call and the class of its
response time; what follows a column in a byte string is ignored, and absent text reads as
empty. -/
namespace CallTelemetry.Statistics

/-- Column of a caller's row: what was called, and by which of the caller's agents. -/
structure CalleeColumn where
  type : Int16
  application : String
  host : String
  slot : Int16
  agentId : String
  deriving DecidableEq

namespace CalleeColumn

def encode (c : CalleeColumn) : Bytes :=
  Bytes.ofInt16 c.type ++ Bytes.lengthPrefixed (some c.application) ++
    Bytes.lengthPrefixed (some c.host) ++ Bytes.ofInt16 c.slot ++
    Bytes.lengthPrefixed (some c.agentId)

def reader : Reader CalleeColumn := do
  let type ← Reader.int16
  let application ← Reader.textOrEmpty
  let host ← Reader.textOrEmpty
  let slot ← Reader.int16
  let agentId ← Reader.textOrEmpty
  return { type, application, host, slot, agentId }

def decode (bytes : Bytes) : Except RowError CalleeColumn := RowError.reading reader bytes

end CalleeColumn

/-- Column of a callee's row: who called, and at which host of the callee. -/
structure CallerColumn where
  type : Int16
  application : String
  host : String
  slot : Int16
  deriving DecidableEq

namespace CallerColumn

def encode (c : CallerColumn) : Bytes :=
  Bytes.ofInt16 c.type ++ Bytes.lengthPrefixed (some c.application) ++
    Bytes.lengthPrefixed (some c.host) ++ Bytes.ofInt16 c.slot

def reader : Reader CallerColumn := do
  let type ← Reader.int16
  let application ← Reader.textOrEmpty
  let host ← Reader.textOrEmpty
  let slot ← Reader.int16
  return { type, application, host, slot }

def decode (bytes : Bytes) : Except RowError CallerColumn := RowError.reading reader bytes

end CallerColumn

/-- Column of an application's own row: the agent that answered. -/
structure ResponseColumn where
  slot : Int16
  agentId : String
  deriving DecidableEq

namespace ResponseColumn

def encode (c : ResponseColumn) : Bytes :=
  Bytes.ofInt16 c.slot ++ Bytes.lengthPrefixed (some c.agentId)

def reader : Reader ResponseColumn := do
  let slot ← Reader.int16
  let agentId ← Reader.textOrEmpty
  return { slot, agentId }

def decode (bytes : Bytes) : Except RowError ResponseColumn := RowError.reading reader bytes

end ResponseColumn

end CallTelemetry.Statistics
