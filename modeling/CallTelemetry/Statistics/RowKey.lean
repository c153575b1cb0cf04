import CallTelemetry.Identifier
import CallTelemetry.Storage.RowError

/-! Row keys of the statistics tables: an application and a minute. The minute is stored as its
distance from the largest 64-bit number, so that the latest minute of an application comes
first. The distance wraps around as words do. -/
namespace CallTelemetry.Statistics

def slotMillis : Int := 60000

/-- The start of the minute that holds a timestamp. -/
def timeSlot (timestamp : Int) : Int := timestamp - timestamp % slotMillis

def lastMillis : Int := Int64.maxValue.toInt

structure RowKey where
  application : String
  type : Int16
  slot : Int
  deriving DecidableEq

namespace RowKey

/-- A key for an application whose name fits the field of the key. -/
def of (application : String) (type : Int16) (slot : Int) : Except RowError RowKey :=
  if Identifier.maxLength < application.utf8ByteSize then
    .error (.applicationNameTooLong application)
  else .ok ⟨application, type, slot⟩

def encode (k : RowKey) : Bytes :=
  Bytes.padded Identifier.maxLength k.application ++ Bytes.ofInt16 k.type ++
    Bytes.ofInt64 (Int64.ofInt (lastMillis - k.slot))

def reader : Reader RowKey := do
  let application ← Reader.padded Identifier.maxLength
  let type ← Reader.int16
  let stored ← Reader.int64
  return ⟨application, type, (Int64.maxValue - stored).toInt⟩

def decode (bytes : Bytes) : Except RowError RowKey := RowError.reading reader bytes

/-- The keys of the minutes of one application from that of `first` to that of `last`. The later
minute starts the range, and the end is the first key after the earlier one. -/
def range (application : String) (type : Int16) (first last : Int) :
    Except RowError (Bytes × Bytes) := do
  let start ← of application type (timeSlot last)
  let stop ← of application type (timeSlot first)
  return (start.encode, stop.encode ++ [0])

end RowKey

end CallTelemetry.Statistics
