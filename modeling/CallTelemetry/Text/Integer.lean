/-! Whole numbers in decimal digits, with an optional sign. -/
namespace CallTelemetry.Text

def digitsValue? (cs : List Char) : Option Nat :=
  if cs.isEmpty then none
  else cs.foldl
    (fun n c => n.bind fun n => if c.isDigit then some (n * 10 + (c.toNat - '0'.toNat)) else none)
    (some 0)

/-- A number from `low` to `high`. A minus sign is read only where negative numbers are. -/
def integerIn? (low high : Int) (cs : List Char) : Option Int := do
  let n ← match cs with
    | '+' :: rest => (digitsValue? rest).map Int.ofNat
    | '-' :: rest => if low < 0 then (digitsValue? rest).map fun n => -(n : Int) else none
    | rest => (digitsValue? rest).map Int.ofNat
  if low ≤ n ∧ n ≤ high then return n else none

end CallTelemetry.Text
