import CallTelemetry.Wire.Message

/-! Frames on a stream: a byte for the kind, the length of the body as a number in groups of seven
bits, and the body, which is a message. -/
namespace CallTelemetry.Wire

inductive Frame where
  | handshake (m : Handshake)
  | span (m : Span)
  | spanChunk (m : SpanChunk)
  | api (m : ApiMetadata)
  | string (m : StringMetadata)
  | sql (m : SqlMetadata)
  deriving DecidableEq

inductive FrameError where
  | unknownKind (kind : UInt8)
  | tooLarge (length : UInt64) (limit : Nat)
  | malformedLength
  | malformedBody
  deriving DecidableEq

def FrameError.message : FrameError → String
  | .unknownKind kind => s!"unknown frame kind {kind.toNat}"
  | .tooLarge length limit => s!"frame of {length.toNat} bytes exceeds the {limit} byte limit"
  | .malformedLength => "malformed length prefix"
  | .malformedBody => "malformed body"

namespace Frame

def kind : Frame → UInt8
  | handshake _ => 0
  | span _ => 1
  | spanChunk _ => 2
  | api _ => 3
  | string _ => 4
  | sql _ => 5

def kindName : Frame → String
  | handshake _ => "handshake"
  | span _ => "span"
  | spanChunk _ => "span chunk"
  | api _ => "api metadata"
  | string _ => "string metadata"
  | sql _ => "sql metadata"

def body : Frame → Bytes
  | handshake m => Handshake.schema.encode m
  | span m => Span.schema.encode m
  | spanChunk m => SpanChunk.schema.encode m
  | api m => ApiMetadata.schema.encode m
  | string m => StringMetadata.schema.encode m
  | sql m => SqlMetadata.schema.encode m

def toJson : Frame → Json
  | handshake m => Handshake.schema.toJson m
  | span m => Span.schema.toJson m
  | spanChunk m => SpanChunk.schema.toJson m
  | api m => ApiMetadata.schema.toJson m
  | string m => StringMetadata.schema.toJson m
  | sql m => SqlMetadata.schema.toJson m

def ofBody (kind : UInt8) (body : Bytes) : Except FrameError Frame :=
  let decoded (frame : Option Frame) : Except FrameError Frame :=
    match frame with
    | some frame => .ok frame
    | none => .error .malformedBody
  match kind.toNat with
  | 0 => decoded ((Handshake.schema.decode? body).map handshake)
  | 1 => decoded ((Span.schema.decode? body).map span)
  | 2 => decoded ((SpanChunk.schema.decode? body).map spanChunk)
  | 3 => decoded ((ApiMetadata.schema.decode? body).map api)
  | 4 => decoded ((StringMetadata.schema.decode? body).map string)
  | 5 => decoded ((SqlMetadata.schema.decode? body).map sql)
  | _ => .error (.unknownKind kind)

def standardLimit : Nat := 4 * 1024 * 1024

/-- Writes a frame behind the bytes that are there: its kind, the length of its body, its body. A body
over the limit is refused before anything is written. -/
def write (limit : Nat) (f : Frame) : ExceptT FrameError (StateM Bytes) Unit := do
  let body := f.body
  let length := UInt64.ofNat body.length
  if limit < body.length then
    throw (.tooLarge length limit)
  modify (· ++ [f.kind])
  modify (· ++ Varint.encode length)
  modify (· ++ body)

/-- The bytes with a frame behind them, if it is not refused. -/
def append (limit : Nat) (f : Frame) (bytes : Bytes) : Except FrameError Bytes :=
  let (outcome, bytes) := (f.write limit).run.run bytes
  outcome.map fun _ => bytes

/-- A length at the start of the bytes that have come so far. -/
inductive Length where
  | incomplete
  | malformed
  /-- The length and the number of its own bytes. -/
  | known (length : UInt64) (width : Nat)
  deriving DecidableEq

/-- Reads the length byte by byte; `position` counts the bytes before. What goes beyond 64 bits is
lost. -/
def readLength (value : UInt64) (position : Nat) : Bytes → Length
  | [] => if position < Varint.maxLength then .incomplete else .malformed
  | b :: rest =>
    if position < Varint.maxLength then
      let value := value ||| ((b &&& 0x7f).toUInt64 <<< UInt64.ofNat (7 * position))
      if b &&& 0x80 = 0 then .known value (position + 1)
      else readLength value (position + 1) rest
    else .malformed

/-- What a decoder finds at the start of its bytes. An error may leave bytes behind it. -/
inductive Step where
  | needsMore
  | frame (f : Frame) (rest : Bytes)
  | error (e : FrameError) (rest : Bytes)

/-- Decodes one frame. A length over the limit is an error before its body has come. -/
def step (limit : Nat) (bytes : Bytes) : Step :=
  match bytes with
  | [] => .needsMore
  | kind :: tail =>
    match readLength 0 0 tail with
    | .incomplete => .needsMore
    | .malformed => .error .malformedLength bytes
    | .known length width =>
      if limit < length.toNat then .error (.tooLarge length limit) bytes
      else
        let tail := tail.drop width
        if tail.length < length.toNat then .needsMore
        else
          let rest := tail.drop length.toNat
          match ofBody kind (tail.take length.toNat) with
          | .ok f => .frame f rest
          | .error e => .error e rest

/-- The frames in the bytes up to the first error, if there is one, and the bytes left. -/
def decodeAll (limit : Nat) : Nat → Bytes → List Frame × Option FrameError × Bytes
  | 0, bytes => ([], none, bytes)
  | fuel + 1, bytes =>
    match step limit bytes with
    | .needsMore => ([], none, bytes)
    | .error e rest => ([], some e, rest)
    | .frame f rest =>
      let (frames, e, rest) := decodeAll limit fuel rest
      (f :: frames, e, rest)

/-- Every frame takes at least two bytes. -/
def decode (limit : Nat) (bytes : Bytes) : List Frame × Option FrameError × Bytes :=
  decodeAll limit (bytes.length + 1) bytes

/-- Bytes that wait for the rest of their frame, and the error that has ended the stream. -/
structure Decoder where
  limit : Nat
  bytes : Bytes
  failed : Bool

/-- Takes a chunk of the stream, and answers the frames that are complete with it. -/
def Decoder.feed (d : Decoder) (chunk : Bytes) : List Frame × Option FrameError × Decoder :=
  let (frames, e, rest) := decode d.limit (d.bytes ++ chunk)
  (frames, e, { d with bytes := rest, failed := e.isSome })

end Frame

end CallTelemetry.Wire
