import CallTelemetry.Json
import CallTelemetry.Metadata.Key
import CallTelemetry.Storage.Store

/-! Signatures of methods, and the cells that hold them. A signature cell holds its payload as the
value; a cell under any other qualifier may hold it as the value too, or, with an empty value, as
the qualifier itself. -/
namespace CallTelemetry.Metadata

inductive MethodType where
  | standard
  | exception
  | annotated
  | parameter
  | webRequest
  | invocationTrace
  | corrupted
  deriving DecidableEq

namespace MethodType

def all : List MethodType :=
  [standard, exception, annotated, parameter, webRequest, invocationTrace, corrupted]

def code : MethodType → Int32
  | standard => 0
  | exception => 1
  | annotated => 2
  | parameter => 3
  | webRequest => 100
  | invocationTrace => 200
  | corrupted => 900

def name : MethodType → String
  | standard => "Default"
  | exception => "Exception"
  | annotated => "Annotation"
  | parameter => "Parameter"
  | webRequest => "WebRequest"
  | invocationTrace => "InvocationTrace"
  | corrupted => "Corrupted"

/-- An unknown code stands for a standard method. -/
def ofCode (code : Int32) : MethodType := (all.find? fun t => t.code == code).getD standard

end MethodType

structure ApiSignature where
  info : String
  line : Int32
  methodType : MethodType
  location : Option String
  deriving DecidableEq

namespace ApiSignature

/-- An absent location is not written at all. -/
def encode (a : ApiSignature) : Bytes :=
  Bytes.lengthPrefixed (some a.info) ++ Bytes.ofInt32 a.line ++ Bytes.ofInt32 a.methodType.code ++
    match a.location with
    | none => []
    | some location => Bytes.lengthPrefixed (some location)

/-- The method type and the location may be missing. -/
def reader : Reader ApiSignature := do
  let info ← Reader.textOrEmpty
  let line ← Reader.int32
  let methodType ← if (← Reader.hasMore) then MethodType.ofCode <$> Reader.int32
    else pure .standard
  let location ← if (← Reader.hasMore) then Reader.lengthPrefixed else pure none
  return { info, line, methodType, location }

end ApiSignature

/-- The payload of strings and statements. -/
def textPayload (s : String) : Bytes := Bytes.lengthPrefixed (some s)

def signatureQualifier : Bytes := Bytes.ofText "P"

def payload (cell : CellName × Bytes) : Bytes :=
  if cell.1.qualifier = signatureQualifier ∨ cell.2 ≠ [] then cell.2 else cell.1.qualifier

structure Entry (α : Type) where
  key : Key
  value : α
  deriving DecidableEq

/-- The entries of a row, one per cell. A row without cells has none, whatever its key. -/
def entries (r : Reader α) (key : Bytes) (cells : List (CellName × Bytes)) :
    Except RowError (List (Entry α)) :=
  match cells with
  | [] => .ok []
  | _ => do
    let key ← Key.decode (← RowError.unsalting key)
    cells.mapM fun cell => do return ⟨key, ← RowError.reading r (payload cell)⟩

def apiEntries : Bytes → List (CellName × Bytes) → Except RowError (List (Entry ApiSignature)) :=
  entries ApiSignature.reader

def textEntries : Bytes → List (CellName × Bytes) → Except RowError (List (Entry String)) :=
  entries Reader.textOrEmpty

def Entry.toApiJson (e : Entry ApiSignature) : Json :=
  .object [("agentId", .text e.key.agentId), ("agentStartTime", .ofInt64 e.key.agentStartTime),
    ("apiId", .ofInt32 e.key.id), ("apiInfo", .text e.value.info),
    ("lineNumber", .ofInt32 e.value.line), ("methodType", .text e.value.methodType.name),
    ("location", .textOrNull e.value.location)]

def Entry.toStringJson (e : Entry String) : Json :=
  .object [("agentId", .text e.key.agentId), ("agentStartTime", .ofInt64 e.key.agentStartTime),
    ("stringId", .ofInt32 e.key.id), ("value", .text e.value)]

def Entry.toSqlJson (e : Entry String) : Json :=
  .object [("agentId", .text e.key.agentId), ("agentStartTime", .ofInt64 e.key.agentStartTime),
    ("sqlId", .ofInt32 e.key.id), ("sql", .text e.value)]

end CallTelemetry.Metadata
