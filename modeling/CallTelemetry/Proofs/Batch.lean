import CallTelemetry.Batch

/-! Sending items in batches. A batch that is full is sent before the next item goes in, and what is
left in the end is sent too. That cuts the items into runs of the size of the batch, and no item is
ever handed back. -/
namespace CallTelemetry

/-! Cutting. -/

theorem chunks_go_eq {size fuel fuel' : Nat} (positive : 0 < size) {l : List α}
    (enough : l.length ≤ fuel) (enough' : l.length ≤ fuel') :
    chunks.go size fuel l = chunks.go size fuel' l := by
  induction fuel generalizing fuel' l with
  | zero =>
    obtain rfl : l = [] := List.length_eq_zero_iff.1 (by omega)
    cases fuel' <;> rfl
  | succ fuel ih =>
    cases l with
    | nil => cases fuel' <;> rfl
    | cons x l =>
      cases fuel' with
      | zero => simp at enough'
      | succ fuel' =>
        have shorter : ((x :: l).drop size).length ≤ l.length := by
          rw [List.length_drop, List.length_cons]
          omega
        rw [List.length_cons] at enough enough'
        exact congrArg _ (ih (Nat.le_trans shorter (by omega)) (Nat.le_trans shorter (by omega)))

/-- A list is cut after its first run, and the rest is cut in the same way. -/
theorem chunks_of_ne_nil (size : Nat) {l : List α} (some : l ≠ []) :
    chunks size l = l.take (max size 1) :: chunks size (l.drop (max size 1)) := by
  cases l with
  | nil => exact absurd rfl some
  | cons x l =>
    have shorter : ((x :: l).drop (max size 1)).length ≤ l.length := by
      rw [List.length_drop, List.length_cons]
      omega
    exact congrArg _ (chunks_go_eq (by omega) shorter Nat.le.refl)

theorem chunks_append {size : Nat} {run : List α} (whole : run.length = max size 1) (l : List α) :
    chunks size (run ++ l) = run :: chunks size l := by
  have some : run ++ l ≠ [] := by
    rintro empty
    rw [(List.append_eq_nil_iff.1 empty).1, List.length_nil] at whole
    omega
  rw [chunks_of_ne_nil size some, List.take_left' whole, List.drop_left' whole]

theorem chunks_of_length_le {size : Nat} {l : List α} (some : l ≠ [])
    (fits : l.length ≤ max size 1) : chunks size l = [l] := by
  rw [chunks_of_ne_nil size some, List.take_of_length_le fits, List.drop_eq_nil_of_le fits]
  rfl

/-- What holds of a list when it holds of what a cut leaves. -/
theorem chunks_induction (size : Nat) {p : List α → Prop} (nil : p [])
    (cut : ∀ l, l ≠ [] → p (l.drop (max size 1)) → p l) (l : List α) : p l := by
  generalize bound : l.length = n
  induction n using Nat.strongRecOn generalizing l with
  | ind n ih =>
    by_cases empty : l = []
    · exact empty ▸ nil
    · have some := List.length_pos_iff.2 empty
      exact cut l empty (ih _ (by rw [List.length_drop]; omega) _ rfl)

theorem chunks_flatten (size : Nat) (l : List α) : (chunks size l).flatten = l := by
  induction l using chunks_induction size with
  | nil => rfl
  | cut l some ih => rw [chunks_of_ne_nil size some, List.flatten_cons, ih, List.take_append_drop]

/-- A list is cut into as few runs as its length takes. -/
theorem chunks_length (size : Nat) (l : List α) :
    (chunks size l).length = (l.length + max size 1 - 1) / max size 1 := by
  induction l using chunks_induction size with
  | nil => exact (Nat.div_eq_of_lt (by rw [List.length_nil]; omega)).symm
  | cut l some ih =>
    have positive : 0 < max size 1 := by omega
    have longer := List.length_pos_iff.2 some
    rw [chunks_of_ne_nil size some, List.length_cons, ih, List.length_drop]
    generalize max size 1 = m at positive
    by_cases last : l.length ≤ m
    · have none : l.length - m + m - 1 < m := by omega
      have one : l.length + m - 1 = l.length - 1 + m := by omega
      rw [Nat.div_eq_of_lt none, one, Nat.add_div_right _ positive, Nat.div_eq_of_lt (by omega)]
    · have less : l.length + m - 1 = l.length - m + m - 1 + m := by omega
      rw [less, Nat.add_div_right _ positive]

/-- A run has items, and not more than its size. -/
theorem chunk_bounds {size : Nat} {l run : List α} (member : run ∈ chunks size l) :
    1 ≤ run.length ∧ run.length ≤ max size 1 := by
  induction l using chunks_induction size with
  | nil => exact absurd member List.not_mem_nil
  | cut l some ih =>
    rw [chunks_of_ne_nil size some] at member
    rcases List.mem_cons.1 member with rfl | member
    · have longer := List.length_pos_iff.2 some
      rw [List.length_take]
      omega
    · exact ih member

/-! Filling. -/

namespace Batch

variable {σ α : Type}

/-- Puts an item into a batch, which is sent before if it is full. An item that finds no room is
given back. -/
def put (send : σ → List α → σ) (giveBack : σ → α → σ) (state : Batch α × σ) (item : α) :
    Batch α × σ :=
  let (b, s) := if state.1.isFull then (state.1.clear, send state.2 state.1.items) else state
  match b.push? item with
  | some b => (b, s)
  | none => (b, giveBack s item)

def sendRest (send : σ → List α → σ) (state : Batch α × σ) : σ :=
  if state.1.isEmpty then state.2 else send state.2 state.1.items

/-- Sends items in batches of a capacity. -/
def sendAll (capacity : Nat) (send : σ → List α → σ) (giveBack : σ → α → σ) (s : σ)
    (items : List α) : σ :=
  sendRest send (items.foldl (put send giveBack) (ofCapacity capacity, s))

variable {send : σ → List α → σ} {giveBack : σ → α → σ} {s : σ} {b : Batch α} {item : α}

theorem put_of_full (full : b.isFull) (positive : 0 < b.capacity) :
    put send giveBack (b, s) item = ({ b with items := [item] }, send s b.items) := by
  have room : b.clear.isFull = false := by
    simp [isFull, clear, size, Nat.ne_of_gt positive]
  simp only [put, full, ↓reduceIte, push?, room]
  rfl

theorem put_of_room (room : b.isFull = false) :
    put send giveBack (b, s) item = ({ b with items := b.items ++ [item] }, s) := by
  simp [put, push?, room]

/-- What a batch holds is sent together with the next items, in runs of the size of the batch. -/
theorem sendRest_foldl {size : Nat} (capacity : b.capacity = max size 1)
    (fits : b.size ≤ b.capacity) (items : List α) :
    sendRest send (items.foldl (put send giveBack) (b, s)) =
      (chunks size (b.items ++ items)).foldl send s := by
  induction items generalizing b s with
  | nil =>
    rw [List.append_nil, List.foldl_nil, sendRest]
    by_cases empty : b.items = []
    · simp [isEmpty, empty, chunks, chunks.go]
    · rw [chunks_of_length_le empty (capacity ▸ fits)]
      simp [isEmpty, empty]
  | cons item items ih =>
    rw [List.foldl_cons]
    by_cases full : b.isFull
    · have whole : b.items.length = max size 1 := by
        rw [← capacity]
        exact Nat.le_antisymm fits (of_decide_eq_true full)
      have one : 1 ≤ b.capacity := by omega
      rw [put_of_full full one, ih (b := { b with items := [item] }) capacity one,
        chunks_append whole]
      rfl
    · have room := eq_false_of_ne_true full
      have less : b.size + 1 ≤ b.capacity := Nat.lt_of_not_le (of_decide_eq_false room)
      have fits' : (b.items ++ [item]).length ≤ b.capacity := by
        rw [List.length_append]
        exact less
      rw [put_of_room room, ih (b := { b with items := b.items ++ [item] }) capacity fits',
        List.append_assoc]
      rfl

theorem sendAll_eq (size : Nat) (send : σ → List α → σ) (giveBack : σ → α → σ) (s : σ)
    (items : List α) :
    sendAll (max size 1) send giveBack s items = (chunks size items).foldl send s :=
  sendRest_foldl rfl (Nat.zero_le _) items

end Batch

end CallTelemetry
