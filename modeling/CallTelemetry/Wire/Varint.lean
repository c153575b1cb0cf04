import CallTelemetry.Bytes

/-! Numbers in groups of seven bits, the low group first; every byte but the last has its high bit
set. -/
namespace CallTelemetry.Wire

namespace Varint

/-- A number of 64 bits fills at most ten bytes. -/
def maxLength : Nat := 10

def encodeWithin : Nat → Nat → Bytes
  | 0, _ => []
  | room + 1, n =>
    if n < 128 then [UInt8.ofNat n] else UInt8.ofNat (n % 128 + 128) :: encodeWithin room (n / 128)

def encode (n : UInt64) : Bytes := encodeWithin maxLength n.toNat

/-- Reads at most `room` bytes; the last of ten may hold one bit only. -/
def decodeWithin (room : Nat) : Bytes → Option (Nat × Bytes)
  | [] => none
  | b :: rest =>
    match room with
    | 0 => none
    | room + 1 =>
      if b < 128 then
        if room = 0 ∧ 1 < b then none else some (b.toNat, rest)
      else do
        let (high, rest) ← decodeWithin room rest
        return (b.toNat - 128 + high * 128, rest)

def decode? (bytes : Bytes) : Option (UInt64 × Bytes) :=
  (decodeWithin maxLength bytes).map fun (n, rest) => (UInt64.ofNat n, rest)

end Varint

/-- Signed numbers as unsigned ones, those near zero as small ones. -/
def zigzag (x : Int32) : UInt32 := (if x < 0 then -2 * x.toInt - 1 else 2 * x.toInt).toNat.toUInt32

def unzigzag (n : UInt32) : Int32 :=
  if n % 2 = 0 then Int32.ofNat (n.toNat / 2) else -(Int32.ofNat (n.toNat / 2)) - 1

end CallTelemetry.Wire
