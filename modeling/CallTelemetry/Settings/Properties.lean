import CallTelemetry.SortedMap
import CallTelemetry.Text.Blank
import CallTelemetry.Text.Case
import CallTelemetry.Text.Integer

/-! Settings as lines of keys and values. The first `=` or `:` of a line parts its key from its
value, blanks around both are dropped, lines that begin with `#` or `!` are comments, and the last
line of a key counts. A variable of the environment may replace the value of a key. -/
namespace CallTelemetry.Settings

inductive SettingsError where
  | invalidValue (key value : String)
  | notABoolean (key value : String)
  | limitNotPositive
  | notPositive (key : String)
  | bucketsOutOfRange (key : String) (buckets : Nat)
  | notASocketAddress (key value : String)
  | unreadableFile
  deriving DecidableEq

def SettingsError.detail : SettingsError → String
  | .invalidValue key value => s!"{key} has an invalid value '{value}'"
  | .notABoolean key value => s!"{key} must be true or false, got '{value}'"
  | .limitNotPositive => "bulk limit sizes must be positive"
  | .notPositive key => s!"{key} must be positive"
  | .bucketsOutOfRange key buckets => s!"{key} must be within 1..=256, got {buckets}"
  | .notASocketAddress key value => s!"{key} is not a socket address: {value}"
  | .unreadableFile => "unreadable file"

def SettingsError.message (e : SettingsError) : String := "Invalid configuration: " ++ e.detail

/-- The variable that replaces the value of a key. -/
def variableOf (key : String) : String :=
  "PINPOINT_" ++ String.ofList
    ((Text.uppercase key).toList.map fun c => if c = '.' ∨ c = '-' then '_' else c)

abbrev Properties := SortedMap String String

namespace Properties

def isSeparator (c : Char) : Bool := c = '=' || c = ':'

def isComment : List Char → Bool
  | '#' :: _ => true
  | '!' :: _ => true
  | _ => false

/-- The key and the value of a line; blank lines, comments and lines without a separator have
none. -/
def line? (line : List Char) : Option (String × String) :=
  let cs := Text.trimList line
  if isComment cs then none
  else
    match cs.dropWhile fun c => !isSeparator c with
    | [] => none
    | _ :: value =>
      some (String.ofList (Text.trimList (cs.takeWhile fun c => !isSeparator c)),
        String.ofList (Text.trimList value))

def parse (text : String) : Properties :=
  .ofList ((Text.split '\n' text.toList).filterMap line?)

/-- Replaces the values of the keys whose variables are set. -/
def override (p : Properties) (keys : List String) (environment : String → Option String) :
    Properties :=
  keys.foldl
    (fun p key =>
      match environment (variableOf key) with
      | some value => p.insert key value
      | none => p)
    p

/-- An empty value counts as absent. -/
def value? (p : Properties) (key : String) : Option String :=
  (p.get? key).filter fun value => !value.isEmpty

def textOf (p : Properties) (key fallback : String) : String := (p.value? key).getD fallback

def integerOf (p : Properties) (low high : Int) (key : String) (fallback : Int) :
    Except SettingsError Int :=
  match p.value? key with
  | none => .ok fallback
  | some value =>
    match Text.integerIn? low high value.toList with
    | some n => .ok n
    | none => .error (.invalidValue key value)

def int32Of (p : Properties) : String → Int → Except SettingsError Int :=
  p.integerOf Int32.minValue.toInt Int32.maxValue.toInt

def int64Of (p : Properties) : String → Int → Except SettingsError Int :=
  p.integerOf Int64.minValue.toInt Int64.maxValue.toInt

/-- A size or duration of up to 64 bits. -/
def sizeOf (p : Properties) (key : String) (fallback : Nat) : Except SettingsError Nat :=
  (p.integerOf 0 0xffffffffffffffff key fallback).map Int.toNat

/-- In any case of letters. -/
def booleanOf (p : Properties) (key : String) (fallback : Bool) : Except SettingsError Bool :=
  match (p.value? key).map Text.lowercase with
  | none => .ok fallback
  | some "true" => .ok true
  | some "false" => .ok false
  | some other => .error (.notABoolean key other)

/-- The trimmed pieces between commas, without the empty ones. -/
def listOf (p : Properties) (key : String) : List String :=
  match p.value? key with
  | none => []
  | some value =>
    ((Text.split ',' value.toList).map fun item => String.ofList (Text.trimList item)).filter
      fun item => !item.isEmpty

end Properties

/-- Names the file to start from. -/
def fileVariable : String := "PINPOINT_CONFIG"

/-- The properties of the file that the environment names, or none; the variables of the keys
replace its values. -/
def gather (environment : String → Option String) (file? : String → Option (List UInt8))
    (keys : List String) : Except SettingsError Properties := do
  let base ← match (environment fileVariable).filter fun path => !path.isEmpty with
    | none => pure .empty
    | some path =>
      match (file? path).bind fun bytes => String.fromUTF8? ⟨⟨bytes⟩⟩ with
      | some text => pure (Properties.parse text)
      | none => throw .unreadableFile
  return base.override keys environment

end CallTelemetry.Settings
