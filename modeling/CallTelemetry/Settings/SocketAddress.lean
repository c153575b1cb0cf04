import CallTelemetry.Bytes

/-! Socket addresses in text: an IPv4 address and a port, or an IPv6 address in brackets, which may
name a scope, and a port. Only the form is judged. -/
namespace CallTelemetry.Settings.SocketAddress

abbrev Input := List Char

def char? (c : Char) : Input → Option Input
  | d :: rest => if c = d then some rest else none
  | [] => none

def decimalDigit? (c : Char) : Option Nat :=
  if c.isDigit then some (c.toNat - '0'.toNat) else none

/-- The values of the digits in front, and what follows them. -/
def digits (digit? : Char → Option Nat) : Input → List Nat × Input
  | [] => ([], [])
  | c :: rest =>
    match digit? c with
    | some d => let (ds, rest) := digits digit? rest; (d :: ds, rest)
    | none => ([], c :: rest)

/-- A decimal number of up to three digits below 256, without a leading zero. -/
def octet? (cs : Input) : Option Input :=
  let (ds, rest) := digits decimalDigit? cs
  if ds.isEmpty ∨ 3 < ds.length ∨ (1 < ds.length ∧ ds.head? = some 0)
      ∨ 255 < ds.foldl (fun n d => n * 10 + d) 0 then none
  else some rest

/-- One to four hexadecimal digits. -/
def group? (cs : Input) : Option Input :=
  let (ds, rest) := digits Bytes.hexDigit? cs
  if ds.isEmpty ∨ 4 < ds.length then none else some rest

/-- A decimal number up to `limit`, of any number of digits. -/
def number? (limit : Nat) (cs : Input) : Option Input :=
  let (ds, rest) := digits decimalDigit? cs
  if ds.isEmpty ∨ limit < ds.foldl (fun n d => n * 10 + d) 0 then none else some rest

def ipv4? (cs : Input) : Option Input := do
  octet? (← char? '.' (← octet? (← char? '.' (← octet? (← char? '.' (← octet? cs))))))

def port? (cs : Input) : Option Input := do number? 65535 (← char? ':' cs)

/-- Every group but the first follows a colon. -/
def separated? (first : Bool) (read? : Input → Option Input) (cs : Input) : Option Input :=
  if first then read? cs else (char? ':' cs).bind read?

/-- Reads up to `room` groups. An IPv4 address ends them, and takes the room of two. Answers the
number of groups, whether an IPv4 address ended them, and the rest. -/
def groups (first : Bool) : Nat → Input → Nat × Bool × Input
  | 0, cs => (0, false, cs)
  | room + 1, cs =>
    match (if 0 < room then separated? first ipv4? cs else none) with
    | some rest => (2, true, rest)
    | none =>
      match separated? first group? cs with
      | some rest => let (n, v4, rest) := groups false room rest; (n + 1, v4, rest)
      | none => (0, false, cs)

/-- Eight groups, or fewer with a double colon for the missing ones. -/
def ipv6? (cs : Input) : Option Input := do
  let (n, v4, rest) := groups true 8 cs
  if n = 8 then return rest
  if v4 then none
  let rest ← char? ':' (← char? ':' rest)
  return (groups true (7 - n) rest).2.2

def scope? (cs : Input) : Option Input :=
  match cs with
  | '%' :: rest => (number? 0xffffffff rest).or (some cs)
  | _ => some cs

def bracketed? (cs : Input) : Option Input := do
  port? (← char? ']' (← scope? (← ipv6? (← char? '[' cs))))

def valid (s : String) : Bool :=
  let whole (rest : Option Input) : Bool := rest == some []
  match (ipv4? s.toList).bind port? with
  | some rest => rest.isEmpty
  | none => whole (bracketed? s.toList)

end CallTelemetry.Settings.SocketAddress
