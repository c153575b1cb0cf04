import CallTelemetry.Pending.Writer
import CallTelemetry.Proofs.Int64

/-! Tallies of changes. The changes that a list has for one cell are joined in a way that asks neither
for their order nor for their grouping: additions to their sum, values to be raised to their
largest. -/
namespace CallTelemetry.Pending

/-- The changes that a list has for one cell, in their order. -/
def deltas (c : Cell) (l : List (Cell × Int64)) : List Int64 :=
  (l.filter fun e => e.1 = c).map (·.2)

@[simp] theorem deltas_nil (c : Cell) : deltas c [] = [] := rfl

theorem deltas_cons (c : Cell) (e : Cell × Int64) (l : List (Cell × Int64)) :
    deltas c (e :: l) = if e.1 = c then e.2 :: deltas c l else deltas c l := by
  by_cases same : e.1 = c <;> simp [deltas, same]

@[simp] theorem deltas_append (c : Cell) (l l' : List (Cell × Int64)) :
    deltas c (l ++ l') = deltas c l ++ deltas c l' := by
  simp [deltas]

theorem deltas_eq_nil_iff {c : Cell} {l : List (Cell × Int64)} :
    deltas c l = [] ↔ ∀ e ∈ l, e.1 ≠ c := by
  simp [deltas]

theorem deltas_perm {l l' : List (Cell × Int64)} (perm : l.Perm l') (c : Cell) :
    (deltas c l).Perm (deltas c l') :=
  (perm.filter _).map _

/-- The cell that a pending cell is written to. -/
def Cell.salted (s : Salting) (c : Cell) : Cell := { c with row := s.salted c.row }

theorem Cell.salted_injective (s : Salting) {a b : Cell} (same : a.salted s = b.salted s) :
    a = b := by
  cases a
  cases b
  simp_all [Cell.salted, Salting.salted]

def saltedEntry (s : Salting) (e : Cell × Int64) : Cell × Int64 := (e.1.salted s, e.2)

theorem saltedEntry_injective (s : Salting) {d e : Cell × Int64}
    (same : saltedEntry s d = saltedEntry s e) : d = e :=
  Prod.ext (Cell.salted_injective s (congrArg Prod.fst same)) (congrArg (·.2) same)

theorem deltas_salted (s : Salting) (c : Cell) (l : List (Cell × Int64)) :
    deltas (c.salted s) (l.map (saltedEntry s)) = deltas c l := by
  induction l with
  | nil => rfl
  | cons e l ih =>
    rw [List.map_cons, deltas_cons, deltas_cons, ih]
    by_cases same : e.1 = c
    · simp [saltedEntry, same]
    · have apart : (saltedEntry s e).1 ≠ c.salted s := fun h => same (Cell.salted_injective s h)
      simp [apart, same]

/-- A way to join changes. -/
structure Tally where
  Worth : Type
  nothing : Worth
  join : Worth → Worth → Worth
  worth : Int64 → Worth
  assoc : ∀ a b c, join (join a b) c = join a (join b c)
  comm : ∀ a b, join a b = join b a
  nothing_join : ∀ a, join nothing a = a

namespace Tally

variable (t : Tally)

instance : Std.Associative t.join := ⟨t.assoc⟩

instance : Std.Commutative t.join := ⟨t.comm⟩

theorem join_nothing (a : t.Worth) : t.join a t.nothing = a := by rw [t.comm, t.nothing_join]

/-- Two steps of an account make one: what each adds and takes can be added and taken together. -/
theorem join_steps {x y z a a' b b' : t.Worth} (first : t.join y a = t.join x b)
    (second : t.join z a' = t.join y b') : t.join z (t.join a a') = t.join x (t.join b b') := by
  calc t.join z (t.join a a')
    _ = t.join (t.join z a') a := by ac_rfl
    _ = t.join (t.join y a) b' := by
      rw [second]
      ac_rfl
    _ = t.join x (t.join b b') := by
      rw [first]
      ac_rfl

/-- What leaves the way is written or goes back. -/
theorem join_parts {stored held held' before after written back refused : t.Worth}
    (settled : t.join held' refused = t.join held back) :
    t.join (t.join (t.join (t.join stored written) held') (t.join before after)) refused =
      t.join (t.join stored held) (t.join before (t.join (t.join written back) after)) := by
  calc t.join (t.join (t.join (t.join stored written) held') (t.join before after)) refused
    _ = t.join (t.join (t.join stored written) (t.join held' refused)) (t.join before after) := by
      ac_rfl
    _ = t.join (t.join stored held) (t.join before (t.join (t.join written back) after)) := by
      rw [settled]
      ac_rfl

/-- What the changes of one cell come to. -/
def total (c : Cell) (l : List (Cell × Int64)) : t.Worth :=
  (deltas c l).foldr (fun delta => t.join (t.worth delta)) t.nothing

@[simp] theorem total_nil (c : Cell) : t.total c [] = t.nothing := rfl

theorem total_cons (c : Cell) (e : Cell × Int64) (l : List (Cell × Int64)) :
    t.total c (e :: l) =
      if e.1 = c then t.join (t.worth e.2) (t.total c l) else t.total c l := by
  by_cases same : e.1 = c <;> simp [total, deltas_cons, same]

theorem total_append (c : Cell) (l l' : List (Cell × Int64)) :
    t.total c (l ++ l') = t.join (t.total c l) (t.total c l') := by
  induction l with
  | nil => exact (t.nothing_join _).symm
  | cons e l ih =>
    rw [List.cons_append, total_cons, total_cons, ih]
    split
    · exact (t.assoc _ _ _).symm
    · rfl

theorem total_perm {l l' : List (Cell × Int64)} (perm : l.Perm l') (c : Cell) :
    t.total c l = t.total c l' := by
  refine (deltas_perm perm c).foldr_eq' (fun x _ y _ z => ?_) t.nothing
  rw [← t.assoc, ← t.assoc, t.comm (t.worth x)]

theorem total_eq_nothing {c : Cell} {l : List (Cell × Int64)} (apart : ∀ e ∈ l, e.1 ≠ c) :
    t.total c l = t.nothing := by
  simp [total, deltas_eq_nil_iff.2 apart]

theorem total_salted (s : Salting) (c : Cell) (l : List (Cell × Int64)) :
    t.total (c.salted s) (l.map (saltedEntry s)) = t.total c l := by
  rw [total, total, deltas_salted]

/-- Sums, modulo the size of a word. -/
def sums : Tally where
  Worth := Int64
  nothing := 0
  join := (· + ·)
  worth delta := delta
  assoc := Int64.add_assoc
  comm := Int64.add_comm
  nothing_join := Int64.zero_add

/-- The largest value, if there is any. -/
def peaks : Tally where
  Worth := Option Int64
  nothing := none
  join := Option.merge max
  worth := some
  assoc := Std.Associative.assoc
  comm := Std.Commutative.comm
  nothing_join := fun _ => Option.merge_none_left

end Tally

/-- The sum of the changes of one cell. -/
def amount (c : Cell) (l : List (Cell × Int64)) : Int64 := Tally.sums.total c l

@[simp] theorem amount_nil (c : Cell) : amount c [] = 0 := rfl

theorem amount_cons (c : Cell) (e : Cell × Int64) (l : List (Cell × Int64)) :
    amount c (e :: l) = (if e.1 = c then e.2 else 0) + amount c l := by
  refine (Tally.sums.total_cons c e l).trans ?_
  split
  · rfl
  · exact (Int64.zero_add _).symm

theorem amount_append (c : Cell) (l l' : List (Cell × Int64)) :
    amount c (l ++ l') = amount c l + amount c l' := Tally.sums.total_append c l l'

theorem amount_eq_zero {c : Cell} {l : List (Cell × Int64)} (apart : ∀ e ∈ l, e.1 ≠ c) :
    amount c l = 0 := Tally.sums.total_eq_nothing apart

/-- The largest change of one cell. -/
def peak (c : Cell) (l : List (Cell × Int64)) : Option Int64 := Tally.peaks.total c l

@[simp] theorem peak_nil (c : Cell) : peak c [] = none := rfl

theorem peak_cons (c : Cell) (e : Cell × Int64) (l : List (Cell × Int64)) :
    peak c (e :: l) = Option.merge max (if e.1 = c then some e.2 else none) (peak c l) := by
  refine (Tally.peaks.total_cons c e l).trans ?_
  split
  · rfl
  · exact Option.merge_none_left.symm

theorem peak_append (c : Cell) (l l' : List (Cell × Int64)) :
    peak c (l ++ l') = Option.merge max (peak c l) (peak c l') := Tally.peaks.total_append c l l'

end CallTelemetry.Pending
