/-! Byte strings and the fixed layouts written into them: big-endian words, zero-padded text and
text behind a 32-bit length. -/
namespace CallTelemetry

abbrev Bytes := List UInt8

namespace Bytes

/-- How many numbers fit in `width` bytes. -/
def capacity : Nat → Nat
  | 0 => 1
  | width + 1 => capacity width * 256

/-- The low `width` bytes of a number, the most significant first. -/
def ofNat : Nat → Nat → Bytes
  | 0, _ => []
  | width + 1, n => UInt8.ofNat (n / capacity width) :: ofNat width n

def toNat (b : Bytes) : Nat := b.foldl (fun n byte => n * 256 + byte.toNat) 0

def ofInt16 (x : Int16) : Bytes := ofNat 2 x.toUInt16.toNat

def ofInt32 (x : Int32) : Bytes := ofNat 4 x.toUInt32.toNat

def ofInt64 (x : Int64) : Bytes := ofNat 8 x.toUInt64.toNat

def toInt16 (b : Bytes) : Int16 := (UInt16.ofNat b.toNat).toInt16

def toInt32 (b : Bytes) : Int32 := (UInt32.ofNat b.toNat).toInt32

def toInt64 (b : Bytes) : Int64 := (UInt64.ofNat b.toNat).toInt64

/-- A counter value; bytes of another width than 8 are none. -/
def toCounter? (b : Bytes) : Option Int64 := if b.length = 8 then some b.toInt64 else none

def ofText (s : String) : Bytes := s.toUTF8.data.toList

/-- The text that the bytes spell in UTF-8. -/
def toText? (b : Bytes) : Option String := String.fromUTF8? ⟨⟨b⟩⟩

/-- Two lower-case hexadecimal digits a byte. -/
def toHex (b : Bytes) : String :=
  String.ofList (b.flatMap fun byte =>
    [Nat.digitChar (byte.toNat / 16), Nat.digitChar (byte.toNat % 16)])

def hexDigit? (c : Char) : Option Nat :=
  if c.isDigit then some (c.toNat - '0'.toNat)
  else if 'a' ≤ c ∧ c ≤ 'f' then some (c.toNat - 'a'.toNat + 10)
  else if 'A' ≤ c ∧ c ≤ 'F' then some (c.toNat - 'A'.toNat + 10)
  else none

def ofHexDigits? : List Char → Option Bytes
  | [] => some []
  | high :: low :: rest => do
    return UInt8.ofNat ((← hexDigit? high) * 16 + (← hexDigit? low)) :: (← ofHexDigits? rest)
  | _ => none

def ofHex? (s : String) : Option Bytes := ofHexDigits? s.toList

def dropTrailingZeros (b : Bytes) : Bytes := (b.reverse.dropWhile (· == 0)).reverse

/-- Cut to `width` bytes, or filled up to it with zeros. -/
def padTo (width : Nat) (b : Bytes) : Bytes :=
  b.take width ++ List.replicate (width - b.length) 0

def padded (width : Nat) (s : String) : Bytes := padTo width (ofText s)

/-- Text behind its length in bytes; absent text has the length -1, and a length that fits no
32-bit word is written as the largest. -/
def lengthPrefixed : Option String → Bytes
  | none => ofInt32 (-1)
  | some s => ofInt32 (Int32.ofNat (min (ofText s).length 0x7fffffff)) ++ ofText s

end Bytes

end CallTelemetry
