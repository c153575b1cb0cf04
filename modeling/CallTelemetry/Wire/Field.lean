import CallTelemetry.Wire.Varint

/-! Numbered fields: a message is a sequence of field numbers and payloads. What a payload means is
not known at this level, but where it ends is. -/
namespace CallTelemetry.Wire

inductive Payload where
  | varint (n : UInt64)
  | fixed64 (b : Bytes)
  | delimited (b : Bytes)
  | fixed32 (b : Bytes)
  /-- Fields between a pair of group marks. -/
  | group
  deriving DecidableEq

namespace Payload

def typeCode : Payload → Nat
  | varint _ => 0
  | fixed64 _ => 1
  | delimited _ => 2
  | group => 3
  | fixed32 _ => 5

def encode : Payload → Bytes
  | varint n => Varint.encode n
  | fixed64 b => b
  | delimited b => Varint.encode (UInt64.ofNat b.length) ++ b
  | fixed32 b => b
  | group => []

end Payload

def encodeField (number : Nat) (p : Payload) : Bytes :=
  Varint.encode (UInt64.ofNat (number * 8 + p.typeCode)) ++ p.encode

/-- The number and the type code of a field; a key has 32 bits, and no field has the number zero. -/
def key? (bytes : Bytes) : Option (Nat × Nat × Bytes) := do
  let (key, rest) ← Varint.decode? bytes
  let key := key.toNat
  if 0x100000000 ≤ key ∨ key < 8 then none
  return (key / 8, key % 8, rest)

def take? (n : Nat) (bytes : Bytes) : Option (Bytes × Bytes) :=
  if n ≤ bytes.length then some (bytes.take n, bytes.drop n) else none

def payload? (type : Nat) (bytes : Bytes) : Option (Payload × Bytes) :=
  match type with
  | 0 => (Varint.decode? bytes).map fun (n, rest) => (.varint n, rest)
  | 1 => (take? 8 bytes).map fun (b, rest) => (.fixed64 b, rest)
  | 2 => do
    let (n, rest) ← Varint.decode? bytes
    let (b, rest) ← take? n.toNat rest
    return (.delimited b, rest)
  | 5 => (take? 4 bytes).map fun (b, rest) => (.fixed32 b, rest)
  | _ => none

/-- Reads to the end mark of a group. Groups may lie in each other, `depth` levels deep at most. -/
def skipGroup (number : Nat) : Nat → Nat → Bytes → Option Bytes
  | _, 0, _ => none
  | depth, fuel + 1, bytes => do
    let (inner, type, rest) ← key? bytes
    if type = 4 then
      if inner = number then return rest else none
    else
      match depth with
      | 0 => none
      | depth + 1 =>
        let rest ←
          if type = 3 then skipGroup inner depth fuel rest
          else (payload? type rest).map (·.2)
        skipGroup number (depth + 1) fuel rest

/-- The fields of a message, each of which takes at least one byte. -/
def fieldsWithin (depth : Nat) : Nat → Bytes → Option (List (Nat × Payload))
  | _, [] => some []
  | 0, _ => none
  | fuel + 1, bytes => do
    let (number, type, rest) ← key? bytes
    let (p, rest) ←
      if type = 3 then (skipGroup number (depth - 1) (rest.length + 1) rest).map (Payload.group, ·)
      else payload? type rest
    return (number, p) :: (← fieldsWithin depth fuel rest)

def fields? (depth : Nat) (bytes : Bytes) : Option (List (Nat × Payload)) :=
  fieldsWithin depth bytes.length bytes

end CallTelemetry.Wire
