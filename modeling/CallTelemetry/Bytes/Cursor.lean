import CallTelemetry.Bytes

/-! Reading a byte string from an offset onwards. A reader answers a value or an error, and in
both cases leaves a cursor: the offset after an error is part of what a caller can see. -/
namespace CallTelemetry

inductive ReadError where
  | underflow (needed remaining : Nat)
  | invalidLength (length : Int32)
  | invalidText
  deriving DecidableEq

def ReadError.message : ReadError → String
  | .underflow needed remaining =>
    s!"buffer underflow: need {needed} bytes, {remaining} remaining"
  | .invalidLength length => s!"invalid string length: {length.toInt}"
  | .invalidText => "invalid utf-8 in prefixed string"

structure Cursor where
  bytes : Bytes
  offset : Nat
  deriving DecidableEq

namespace Cursor

def start (bytes : Bytes) : Cursor := ⟨bytes, 0⟩

/-- An offset beyond the end means the end. -/
def startAt (bytes : Bytes) (offset : Nat) : Cursor := ⟨bytes, min offset bytes.length⟩

def remaining (c : Cursor) : Nat := c.bytes.length - c.offset

def hasMore (c : Cursor) : Bool := 0 < c.remaining

end Cursor

abbrev Reader := ExceptT ReadError (StateM Cursor)

namespace Reader

def run (r : Reader α) (c : Cursor) : Except ReadError α × Cursor := r c

/-- The value read from the start of a byte string; what follows it is ignored. -/
def read (r : Reader α) (bytes : Bytes) : Except ReadError α := (r.run (.start bytes)).1

/-- The next `n` bytes, all of them or none. -/
def take (n : Nat) : Reader Bytes := fun c =>
  if n ≤ c.remaining then
    (.ok ((c.bytes.drop c.offset).take n), { c with offset := c.offset + n })
  else
    (.error (.underflow n c.remaining), c)

def byte : Reader UInt8 := do return UInt8.ofNat (← take 1).toNat

def int16 : Reader Int16 := do return (← take 2).toInt16

def int32 : Reader Int32 := do return (← take 4).toInt32

def int64 : Reader Int64 := do return (← take 8).toInt64

def text (n : Nat) (strip : Bytes → Bytes) : Reader String := do
  match (strip (← take n)).toText? with
  | some s => return s
  | none => throw .invalidText

/-- Text in a field of fixed width, without the zeros that fill it. -/
def padded (width : Nat) : Reader String := text width Bytes.dropTrailingZeros

def lengthPrefixed : Reader (Option String) := do
  let length ← int32
  if length = -1 then
    return none
  else if length < 0 then
    throw (.invalidLength length)
  else
    return some (← text length.toInt.toNat id)

/-- Absent text reads as empty. -/
def textOrEmpty : Reader String := do return (← lengthPrefixed).getD ""

def hasMore : Reader Bool := fun c => (.ok c.hasMore, c)

end Reader

end CallTelemetry
