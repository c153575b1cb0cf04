import CallTelemetry.Bytes

/-! Reading JSON text. A document keeps what a reader of typed fields needs: whole numbers as
such, any other number only as "not whole", and a string whose escapes leave a surrogate unpaired
as a string without a value. Such a string is an error only where its value is asked for. -/
namespace CallTelemetry.Json

inductive Document where
  | null
  | bool (b : Bool)
  | int (n : Int)
  | fraction
  | text (s : Option String)
  | array (items : List Document)
  | object (members : List (Option String × Document))

namespace Document

def isBlank (c : Char) : Bool := c = ' ' || c = '\n' || c = '\t' || c = '\r'

def skipBlanks (cs : List Char) : List Char := cs.dropWhile isBlank

def hexUnit? (a b c d : Char) : Option Nat := do
  let high := (← Bytes.hexDigit? a) * 16 + (← Bytes.hexDigit? b)
  return (high * 16 + (← Bytes.hexDigit? c)) * 16 + (← Bytes.hexDigit? d)

/-- The characters of a string read so far, the last first, and a leading surrogate that waits for
its partner. -/
structure Spelling where
  chars : Option (List Char)
  leading : Option Nat

namespace Spelling

def empty : Spelling := ⟨some [], none⟩

def push (s : Spelling) (c : Char) : Spelling :=
  match s.leading with
  | none => ⟨s.chars.map (c :: ·), none⟩
  | some _ => ⟨none, none⟩

/-- Adds a UTF-16 unit. -/
def pushUnit (s : Spelling) (u : Nat) : Spelling :=
  match s.leading with
  | none =>
    if 0xD800 ≤ u ∧ u < 0xDC00 then ⟨s.chars, some u⟩
    else if 0xDC00 ≤ u ∧ u < 0xE000 then ⟨none, none⟩
    else ⟨s.chars.map (Char.ofNat u :: ·), none⟩
  | some lead =>
    if 0xDC00 ≤ u ∧ u < 0xE000 then
      ⟨s.chars.map (Char.ofNat (0x10000 + (lead - 0xD800) * 0x400 + (u - 0xDC00)) :: ·), none⟩
    else ⟨none, none⟩

def finish (s : Spelling) : Option String :=
  match s.leading with
  | none => s.chars.map fun cs => String.ofList cs.reverse
  | some _ => none

end Spelling

def escaped? : Char → Option Char
  | '"' => some '"'
  | '\\' => some '\\'
  | '/' => some '/'
  | 'b' => some '\x08'
  | 'f' => some '\x0c'
  | 'n' => some '\n'
  | 'r' => some '\r'
  | 't' => some '\t'
  | _ => none

/-- Reads a string after its opening quote. -/
def string? (s : Spelling) : List Char → Option (Option String × List Char)
  | [] => none
  | '"' :: rest => some (s.finish, rest)
  | '\\' :: 'u' :: a :: b :: c :: d :: rest =>
    match hexUnit? a b c d with
    | some u => string? (s.pushUnit u) rest
    | none => none
  | '\\' :: c :: rest =>
    match escaped? c with
    | some e => string? (s.push e) rest
    | none => none
  | c :: rest => if c = '\\' ∨ c.toNat < 32 then none else string? (s.push c) rest

def digits (cs : List Char) : List Char × List Char :=
  (cs.takeWhile Char.isDigit, cs.dropWhile Char.isDigit)

def decimal (ds : List Char) : Nat := ds.foldl (fun n d => n * 10 + (d.toNat - '0'.toNat)) 0

/-- At least one digit. -/
def someDigits? (cs : List Char) : Option (List Char) :=
  match digits cs with
  | ([], _) => none
  | (_, rest) => some rest

def exponent? (cs : List Char) : Option (Bool × List Char) :=
  match cs with
  | c :: rest =>
    if c = 'e' ∨ c = 'E' then
      let unsigned := match rest with
        | '+' :: r => r
        | '-' :: r => r
        | r => r
      (someDigits? unsigned).map (true, ·)
    else some (false, cs)
  | [] => some (false, [])

def fractionPart? (cs : List Char) : Option (Bool × List Char) :=
  match cs with
  | '.' :: rest => (someDigits? rest).map (true, ·)
  | _ => some (false, cs)

/-- A number without its sign. Minus zero is no whole number. -/
def number? (negative : Bool) (cs : List Char) : Option (Document × List Char) := do
  let (ds, rest) := digits cs
  if ds.isEmpty ∨ (1 < ds.length ∧ ds.head? = some '0') then none
  let (hasFraction, rest) ← fractionPart? rest
  let (hasExponent, rest) ← exponent? rest
  let n := decimal ds
  if hasFraction ∨ hasExponent ∨ (negative ∧ n = 0) then return (fraction, rest)
  return (int (if negative then -n else n), rest)

mutual

def value? (fuel : Nat) (cs : List Char) : Option (Document × List Char) :=
  match fuel with
  | 0 => none
  | fuel + 1 =>
    match skipBlanks cs with
    | 'n' :: 'u' :: 'l' :: 'l' :: rest => some (null, rest)
    | 't' :: 'r' :: 'u' :: 'e' :: rest => some (bool true, rest)
    | 'f' :: 'a' :: 'l' :: 's' :: 'e' :: rest => some (bool false, rest)
    | '"' :: rest => (string? .empty rest).map fun (s, rest) => (text s, rest)
    | '-' :: rest => number? true rest
    | '[' :: rest =>
      match skipBlanks rest with
      | ']' :: rest => some (array [], rest)
      | rest => (items? fuel rest).map fun (items, rest) => (array items, rest)
    | '\x7b' :: rest =>
      match skipBlanks rest with
      | '\x7d' :: rest => some (object [], rest)
      | rest => (members? fuel rest).map fun (members, rest) => (object members, rest)
    | cs => number? false cs

/-- The items of an array up to its closing bracket. -/
def items? (fuel : Nat) (cs : List Char) : Option (List Document × List Char) :=
  match fuel with
  | 0 => none
  | fuel + 1 => do
    let (item, rest) ← value? fuel cs
    match skipBlanks rest with
    | ',' :: rest => (items? fuel rest).map fun (items, rest) => (item :: items, rest)
    | ']' :: rest => return ([item], rest)
    | _ => none

def members? (fuel : Nat) (cs : List Char) : Option (List (Option String × Document) × List Char) :=
  match fuel with
  | 0 => none
  | fuel + 1 =>
    match skipBlanks cs with
    | '"' :: rest => do
      let (name, rest) ← string? .empty rest
      match skipBlanks rest with
      | ':' :: rest =>
        let (value, rest) ← value? fuel rest
        match skipBlanks rest with
        | ',' :: rest =>
          (members? fuel rest).map fun (members, rest) => ((name, value) :: members, rest)
        | '\x7d' :: rest => return ([(name, value)], rest)
        | _ => none
      | _ => none
    | _ => none

end

/-- Reads one value with nothing but blanks around it. -/
def parse? (s : String) : Option Document := do
  let cs := s.toList
  let (value, rest) ← value? (cs.length + 1) cs
  if (skipBlanks rest).isEmpty then return value else none

def toText? : Document → Option String
  | text s => s
  | _ => none

def toBool? : Document → Option Bool
  | bool b => some b
  | _ => none

/-- A whole number from `low` to `high`. -/
def toIntIn? (low high : Int) : Document → Option Int
  | int n => if low ≤ n ∧ n ≤ high then some n else none
  | _ => none

/-- One name of a fixed set, as a string or as an object with that name alone and null. -/
def toChoice? (ofName? : String → Option α) : Document → Option α
  | text (some s) => ofName? s
  | object [(some s, null)] => ofName? s
  | _ => none

/-- The value of a member, the last of that name. -/
def field? (name : String) : Document → Option Document
  | object members => (members.reverse.find? fun m => m.1 == some name).map (·.2)
  | _ => none

/-- The values of the named fields in their order, from an object or from an array that lists them
by position. An object may hold other names, but names no field twice. -/
def fields? (names : List String) : Document → Option (List (Option Document))
  | object members => do
    if members.any fun m => m.1.isNone then none
    names.mapM fun name =>
      match members.filter fun m => m.1 == some name with
      | [] => some none
      | [(_, value)] => some (some value)
      | _ => none
  | array items =>
    if items.length ≤ names.length then some (names.mapIdx fun i _ => items[i]?) else none
  | _ => none

/-- A field that must be there. -/
def required (read? : Document → Option α) : Option Document → Option α
  | none => none
  | some d => read? d

/-- A field that may be left out. -/
def optional (read? : Document → Option α) (fallback : α) : Option Document → Option α
  | none => some fallback
  | some d => read? d

end Document

end CallTelemetry.Json
