/-! Batches that never hold more than their capacity. -/
namespace CallTelemetry

structure Batch (α : Type) where
  capacity : Nat
  items : List α

namespace Batch

def ofCapacity (capacity : Nat) : Batch α := ⟨capacity, []⟩

def size (b : Batch α) : Nat := b.items.length

def isEmpty (b : Batch α) : Bool := b.items.isEmpty

def isFull (b : Batch α) : Bool := b.capacity ≤ b.size

/-- Appends an item; none if the batch is full. -/
def push? (b : Batch α) (item : α) : Option (Batch α) :=
  if b.isFull then none else some { b with items := b.items ++ [item] }

/-- What is answered to an item that finds the batch full. -/
def refusal (b : Batch α) : String := s!"batch is full: capacity {b.capacity}"

def clear (b : Batch α) : Batch α := { b with items := [] }

end Batch

/-- Cuts a list into runs of `size` items, the last of which may be shorter. A size of zero cuts
like one. -/
def chunks (size : Nat) (l : List α) : List (List α) :=
  go (max size 1) l.length l
where
  go (size : Nat) : Nat → List α → List (List α)
    | 0, _ => []
    | _ + 1, [] => []
    | fuel + 1, x :: l => (x :: l).take size :: go size fuel ((x :: l).drop size)

end CallTelemetry
