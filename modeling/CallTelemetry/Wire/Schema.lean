import CallTelemetry.Json
import CallTelemetry.Json.Document
import CallTelemetry.Wire.Field

/-! Messages described by their fields. A field has a number for its bytes and a name for its JSON
form. Reading bytes starts from the empty message and takes one field after the other: a later
scalar replaces an earlier one, messages are merged, fields without a description are ignored, and
a field of another type than described is an error. Values equal to their default are not
written. -/
namespace CallTelemetry.Wire

/-- A type of scalars. The JSON form of bytes, and of floating-point bits, is hexadecimal. -/
structure Scalar (β : Type) where
  zero : β
  isZero : β → Bool
  write : β → Payload
  read : Payload → Option β
  toJson : β → Json
  ofJson : Json.Document → Option β

namespace Scalar

def text : Scalar String where
  zero := ""
  isZero s := s.isEmpty
  write s := .delimited (Bytes.ofText s)
  read
    | .delimited b => b.toText?
    | _ => none
  toJson := .text
  ofJson := Json.Document.toText?

def int32 : Scalar Int32 where
  zero := 0
  isZero x := x == 0
  write x := .varint x.toInt64.toUInt64
  read
    | .varint n => some n.toUInt32.toInt32
    | _ => none
  toJson := .ofInt32
  ofJson d := (d.toIntIn? Int32.minValue.toInt Int32.maxValue.toInt).map Int32.ofInt

def int64 : Scalar Int64 where
  zero := 0
  isZero x := x == 0
  write x := .varint x.toUInt64
  read
    | .varint n => some n.toInt64
    | _ => none
  toJson := .ofInt64
  ofJson d := (d.toIntIn? Int64.minValue.toInt Int64.maxValue.toInt).map Int64.ofInt

/-- Numbers that are small in either direction. -/
def sint32 : Scalar Int32 where
  zero := 0
  isZero x := x == 0
  write x := .varint (zigzag x).toUInt64
  read
    | .varint n => some (unzigzag n.toUInt32)
    | _ => none
  toJson := .ofInt32
  ofJson d := (d.toIntIn? Int32.minValue.toInt Int32.maxValue.toInt).map Int32.ofInt

/-- Eight bytes, the lowest first. -/
def fixed64 : Scalar Int64 where
  zero := 0
  isZero x := x == 0
  write x := .fixed64 (Bytes.ofInt64 x).reverse
  read
    | .fixed64 b => some (Bytes.toInt64 b.reverse)
    | _ => none
  toJson := .ofInt64
  ofJson d := (d.toIntIn? Int64.minValue.toInt Int64.maxValue.toInt).map Int64.ofInt

def boolean : Scalar Bool where
  zero := false
  isZero b := !b
  write b := .varint (if b then 1 else 0)
  read
    | .varint n => some (n != 0)
    | _ => none
  toJson := .bool
  ofJson := Json.Document.toBool?

/-- The bits of a floating-point number. -/
def double : Scalar UInt64 where
  zero := 0
  isZero bits := bits == 0
  write bits := .fixed64 (Bytes.ofNat 8 bits.toNat).reverse
  read
    | .fixed64 b => some (UInt64.ofNat (Bytes.toNat b.reverse))
    | _ => none
  toJson bits := .text (Bytes.toHex (Bytes.ofNat 8 bits.toNat))
  ofJson d := (d.toText?.bind Bytes.ofHex?).map fun b => UInt64.ofNat b.toNat

def binary : Scalar Bytes where
  zero := []
  isZero b := b.isEmpty
  write b := .delimited b
  read
    | .delimited b => some b
    | _ => none
  toJson b := .text b.toHex
  ofJson d := d.toText?.bind Bytes.ofHex?

end Scalar

/-- A field of the messages of type `α`. `read` is told how deep messages may still lie in each
other; `toJson` answers none for a field that is absent. -/
structure Field (α : Type) where
  number : Nat
  name : String
  write : α → Bytes
  read : Nat → Payload → α → Option α
  toJson : α → Option Json
  ofJson : Json.Document → α → Option α

/-- In a choice at most one of the fields is present, and the JSON form shows that one alone. -/
structure Schema (α : Type) where
  empty : α
  isChoice : Bool
  fields : List (Field α)

namespace Schema

def encode (s : Schema α) (m : α) : Bytes := s.fields.flatMap fun f => f.write m

def readField (s : Schema α) (depth : Nat) (m : α) (f : Nat × Payload) : Option α :=
  match s.fields.find? fun d => d.number == f.1 with
  | some d => d.read depth f.2 m
  | none => some m

/-- Takes the fields of a byte string into a message. -/
def merge (s : Schema α) (depth : Nat) (bytes : Bytes) (m : α) : Option α := do
  (← fields? depth bytes).foldlM (s.readField depth) m

/-- The number of levels to which messages may lie in each other. -/
def maxDepth : Nat := 100

def decode? (s : Schema α) (bytes : Bytes) : Option α := s.merge maxDepth bytes s.empty

def toJson (s : Schema α) (m : α) : Json :=
  .object (s.fields.filterMap fun f =>
    match f.toJson m with
    | some j => some (f.name, j)
    | none => if s.isChoice then none else some (f.name, .null))

/-- Fields that are missing or null stay empty. -/
def ofJson? (s : Schema α) (d : Json.Document) : Option α :=
  s.fields.foldlM (fun m f =>
    match d.field? f.name with
    | some .null => some m
    | some value => f.ofJson value m
    | none => some m) s.empty

end Schema

namespace Field

/-- A scalar that is always there. -/
def plain (t : Scalar β) (number : Nat) (name : String) (get : α → β) (set : β → α → α) :
    Field α where
  number := number
  name := name
  write m := if t.isZero (get m) then [] else encodeField number (t.write (get m))
  read _ p m := (t.read p).map (set · m)
  toJson m := some (t.toJson (get m))
  ofJson d m := (t.ofJson d).map (set · m)

/-- A scalar that may be absent; a present one is written whatever its value. -/
def maybe (t : Scalar β) (number : Nat) (name : String) (get : α → Option β)
    (set : β → α → α) : Field α where
  number := number
  name := name
  write m := match get m with
    | some v => encodeField number (t.write v)
    | none => []
  read _ p m := (t.read p).map (set · m)
  toJson m := (get m).map t.toJson
  ofJson d m := (t.ofJson d).map (set · m)

/-- A message that may be absent. -/
def message (s : Schema β) (number : Nat) (name : String) (get : α → Option β)
    (set : β → α → α) : Field α where
  number := number
  name := name
  write m := match get m with
    | some v => encodeField number (.delimited (s.encode v))
    | none => []
  read depth p m := match p with
    | .delimited b => (s.merge (depth - 1) b ((get m).getD s.empty)).map (set · m)
    | _ => none
  toJson m := (get m).map s.toJson
  ofJson d m := (s.ofJson? d).map (set · m)

/-- Any number of messages in their order. -/
def repeated (s : Schema β) (number : Nat) (name : String) (get : α → List β)
    (set : List β → α → α) : Field α where
  number := number
  name := name
  write m := (get m).flatMap fun v => encodeField number (.delimited (s.encode v))
  read depth p m := match p with
    | .delimited b => (s.merge (depth - 1) b s.empty).map fun v => set (get m ++ [v]) m
    | _ => none
  toJson m := some (.array ((get m).map s.toJson))
  ofJson d m := match d with
    | .array items => (items.mapM s.ofJson?).map (set · m)
    | _ => none

end Field

end CallTelemetry.Wire
