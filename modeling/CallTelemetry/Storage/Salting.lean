import CallTelemetry.Bytes

/-! Salted row keys. Keys that grow with time would crowd one region of a table, so a key is
stored behind one byte computed from it, and a range of keys is read once per value of that
byte. -/
namespace CallTelemetry

inductive SaltError where
  | invalidBucketCount (buckets : Nat)
  | keyTooShort (length : Nat)
  deriving DecidableEq

/-- The number of values that a salt takes. -/
structure Salting where
  buckets : Nat
  positive : 0 < buckets
  fitsByte : buckets ≤ 256

namespace Salting

/-- The width of a salt in bytes. -/
def width : Nat := 1

def ofBuckets (buckets : Nat) : Except SaltError Salting :=
  if h : 0 < buckets ∧ buckets ≤ 256 then .ok ⟨buckets, h.1, h.2⟩
  else .error (.invalidBucketCount buckets)

/-- A multiplicative hash of 64 bits. -/
def fnv1a (key : Bytes) : UInt64 :=
  key.foldl (fun h byte => (h ^^^ byte.toUInt64) * 0x100000001b3) 0xcbf29ce484222325

/-- The low bits of the hash depend on the low bits of the bytes alone, so the high bits are folded
in before the remainder is taken. -/
def bucket (s : Salting) (key : Bytes) : UInt8 :=
  let h := fnv1a key
  let h := h ^^^ (h >>> 32)
  let h := h ^^^ (h >>> 16)
  UInt8.ofNat (h.toNat % s.buckets)

def salts (s : Salting) : List UInt8 := (List.range s.buckets).map UInt8.ofNat

def salted (s : Salting) (key : Bytes) : Bytes := s.bucket key :: key

def unsalted (key : Bytes) : Except SaltError Bytes :=
  match key with
  | [] => .error (.keyTooShort 0)
  | _ :: key => .ok key

/-- Overwrites the byte that is kept free for the salt. -/
def writeSalt (s : Salting) (key : Bytes) : Except SaltError Bytes := (unsalted key).map s.salted

/-- A key under every salt. -/
def allSalted (s : Salting) (key : Bytes) : List Bytes := s.salts.map (· :: key)

/-- The ranges that together hold every salted key of a range. -/
def ranges (s : Salting) (start stop : Bytes) : List (Bytes × Bytes) :=
  s.salts.map fun salt => (salt :: start, salt :: stop)

end Salting

def SaltError.message : SaltError → String
  | .invalidBucketCount buckets => s!"bucket count must be within 1..=256, got {buckets}"
  | .keyTooShort length =>
    let width := Salting.width
    s!"key of {length} bytes is shorter than the {width} byte salt"

end CallTelemetry
