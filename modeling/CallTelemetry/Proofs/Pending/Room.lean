import CallTelemetry.Proofs.Pending.Ledger

/-! Room for pending cells. Beside its cells a container keeps their number. Whatever is put in, taken
out or put back, the number is right and within the limit, and a change is only refused when the
container is full. -/
namespace CallTelemetry.Pending

/-- A number of cells that is right and within a limit. -/
structure Counted (limit : Option Nat) (cells : SortedMap Cell Int64) (count : Nat) : Prop where
  exact : count = cells.size
  within : ∀ room, limit = some room → count ≤ room

namespace Counted

variable {limit : Option Nat} {cells : SortedMap Cell Int64} {count : Nat} {x : Cell}

theorem empty (limit : Option Nat) : Counted limit .empty 0 := ⟨rfl, fun room _ => room.zero_le⟩

theorem replace (counted : Counted limit cells count) (present : cells.get? x ≠ none) (v : Int64) :
    Counted limit (cells.insert x v) count := by
  refine ⟨?_, counted.within⟩
  rw [SortedMap.size_insert, if_neg present, counted.exact]

theorem insert (counted : Counted limit cells count) (absent : cells.get? x = none)
    (room : fits limit count) (v : Int64) : Counted limit (cells.insert x v) (count + 1) := by
  constructor
  · rw [SortedMap.size_insert, if_pos absent, counted.exact]
  · rintro size rfl
    exact of_decide_eq_true room

theorem remove (counted : Counted limit cells count) (present : cells.get? x ≠ none) :
    Counted limit (cells.erase x) (count - 1) := by
  constructor
  · have fewer := SortedMap.size_erase present
    have exact := counted.exact
    omega
  · intro size limited
    have := counted.within size limited
    omega

theorem full_iff {room : Nat} (counted : Counted (some room) cells count) :
    fits (some room) count = false ↔ cells.size = room := by
  have within := counted.within room rfl
  have exact := counted.exact
  simp only [fits, decide_eq_false_iff_not]
  omega

end Counted

namespace Counters

def Counted (limit : Option Nat) (c : Counters) : Prop := Pending.Counted limit c.cells c.count

variable {limit : Option Nat} {c : Counters}

theorem add_fst_eq_false_iff {cell : Cell} {delta : Int64} :
    (c.add limit cell delta).1 = false ↔ c.cells.get? cell = none ∧ fits limit c.count = false := by
  unfold add
  split
  next found => simp [found]
  next absent => split <;> simp_all

theorem counted_add (counted : c.Counted limit) (e : Cell × Int64) :
    (c.add limit e.1 e.2).2.Counted limit := by
  unfold add
  split
  next found => exact counted.replace (by simp [found]) _
  next absent =>
    split
    next room => exact counted.insert absent room _
    next => exact counted

theorem counted_addAll (counted : c.Counted limit) (l : List (Cell × Int64)) :
    (c.addAll limit l).Counted limit := by
  induction l generalizing c with
  | nil => exact counted
  | cons e l ih => exact ih (counted_add counted e)

theorem counted_take (counted : c.Counted limit) (cell : Cell) : (c.take cell).2.Counted limit := by
  unfold take
  split
  next found => exact counted.replace (by simp [found]) 0
  next => exact counted

theorem counted_takeAll (counted : c.Counted limit) (l : List Cell) :
    (takeAll l c).2.Counted limit := by
  induction l generalizing c with
  | nil => exact counted
  | cons cell l ih => exact ih (counted_take counted cell)

theorem counted_sweep (counted : c.Counted limit) (cell : Cell) : (c.sweep cell).Counted limit := by
  unfold sweep
  split
  next zero => exact counted.remove (by simp [zero])
  next => exact counted

/-- Draining counts the cells down one by one, and so down to those that it leaves. -/
theorem counted_drain (counted : c.Counted limit) : c.drain.2.Counted limit := by
  have swept (l : List Cell) (c : Counters) (counted : c.Counted limit) :
      (l.foldl sweep c).Counted limit := by
    induction l generalizing c with
    | nil => exact counted
    | cons cell l ih => exact ih _ (counted_sweep counted cell)
  exact swept _ _ (counted_takeAll counted _)

end Counters

namespace Maxima

def Counted (limit : Option Nat) (m : Maxima) : Prop := Pending.Counted limit m.cells m.count

variable {limit : Option Nat} {m : Maxima}

theorem raise_fst_eq_false_iff {cell : Cell} {value : Int64} :
    (m.raise limit cell value).1 = false ↔
      m.cells.get? cell = none ∧ fits limit m.count = false := by
  unfold raise
  split
  next found => simp [found]
  next absent => split <;> simp_all

theorem counted_raise (counted : m.Counted limit) (e : Cell × Int64) :
    (m.raise limit e.1 e.2).2.Counted limit := by
  unfold raise
  split
  next found => exact counted.replace (by simp [found]) _
  next absent =>
    split
    next room => exact counted.insert absent room _
    next => exact counted

theorem counted_raiseAll (counted : m.Counted limit) (l : List (Cell × Int64)) :
    (m.raiseAll limit l).Counted limit := by
  induction l generalizing m with
  | nil => exact counted
  | cons e l ih => exact ih (counted_raise counted e)

theorem counted_take (counted : m.Counted limit) (cell : Cell) : (m.take cell).2.Counted limit := by
  unfold take
  split
  next found => exact counted.remove (by simp [found])
  next => exact counted

theorem counted_drain (counted : m.Counted limit) : m.drain.2.Counted limit := by
  have taken (l : List Cell) (m : Maxima) (counted : m.Counted limit) :
      (takeAll l m).2.Counted limit := by
    induction l generalizing m with
    | nil => exact counted
    | cons cell l ih => exact ih _ (counted_take counted cell)
  exact taken _ _ counted

end Maxima

namespace BatchedWriter

def limit (w : BatchedWriter) : Flushing → Option Nat
  | .counters => w.counterLimit
  | .maxima => w.maximumLimit

def count (w : BatchedWriter) : Flushing → Nat
  | .counters => w.counters.count
  | .maxima => w.maxima.count

/-- Whether both containers of a writer know how many cells they hold, and have room for them. -/
structure Counted (w : BatchedWriter) : Prop where
  counters : w.counters.Counted w.counterLimit
  maxima : w.maxima.Counted w.maximumLimit

theorem Counted.pending {w : BatchedWriter} (counted : w.Counted) (kind : Flushing) :
    Pending.Counted (w.limit kind) (w.pending kind) (w.count kind) :=
  match kind with
  | .counters => counted.counters
  | .maxima => counted.maxima

theorem counted_bare (w : BatchedWriter) : w.bare.Counted := ⟨.empty _, .empty _⟩

theorem Counted.of_parts {w w' : BatchedWriter} (same : w'.bare = w.bare)
    (counters : w'.counters.Counted w.counterLimit) (maxima : w'.maxima.Counted w.maximumLimit) :
    w'.Counted := by
  have counterLimit : w'.counterLimit = w.counterLimit := same_of_bare same fun _ => rfl
  have maximumLimit : w'.maximumLimit = w.maximumLimit := same_of_bare same fun _ => rfl
  exact ⟨counterLimit ▸ counters, maximumLimit ▸ maxima⟩

theorem admits_eq (w : BatchedWriter) (m : Mutation) :
    w.admits m = match m.change with
      | .add delta => (w.counters.add w.counterLimit (w.target m) delta).1
      | .raise value => (w.maxima.raise w.maximumLimit (w.target m) value).1 := by
  unfold admits increment raise
  cases m.change with
  | add delta => dsimp only; split <;> simp [*]
  | raise value => dsimp only; split <;> simp [*]

section

variable {w : BatchedWriter} (counted : w.Counted)

include counted

theorem counted_mutate (m : Mutation) : (w.mutate m).Counted := by
  refine .of_parts (w.bare_mutate m) ?_ ?_
  · rw [counters_mutate]
    exact Counters.counted_addAll counted.counters _
  · rw [maxima_mutate]
    exact Maxima.counted_raiseAll counted.maxima _

theorem counted_beginFlush (kind : Flushing) : (w.beginFlush kind).2.Counted := by
  refine .of_parts (w.bare_beginFlush kind) ?_ ?_
  · cases kind with
    | counters => exact Counters.counted_drain counted.counters
    | maxima => exact counted.counters
  · cases kind with
    | counters => exact counted.maxima
    | maxima => exact Maxima.counted_drain counted.maxima

theorem counted_settle (r : Request) (outcome : Except StoreError Unit) :
    (w.settle r outcome).Counted := by
  refine .of_parts (w.bare_settle r outcome) ?_ ?_
  · rw [counters_settle]
    exact Counters.counted_addAll counted.counters _
  · rw [maxima_settle]
    exact Maxima.counted_raiseAll counted.maxima _

/-- Room is only wanting for a cell that is not there, in a container that is full. -/
theorem admits_eq_false_iff {m : Mutation} {room : Nat} (limited : w.limit m.kind = some room) :
    w.admits m = false ↔
      (w.pending m.kind).get? (w.target m) = none ∧ (w.pending m.kind).size = room := by
  have full := counted.pending m.kind
  rw [limited] at full
  rw [← full.full_iff, ← limited, w.admits_eq]
  unfold Mutation.kind
  cases m.change with
  | add delta => exact Counters.add_fst_eq_false_iff
  | raise value => exact Maxima.raise_fst_eq_false_iff

end

end BatchedWriter

namespace Writing

variable {ι : Type} [DecidableEq ι]

theorem counted_step {s : Writing ι} {i : ι} (counted : (s.writers i).Counted) (a : Action ι) :
    ((s.step a).writers i).Counted := by
  rcases writer_cases s a i with same | ⟨m, _, same⟩ | ⟨kind, _, same⟩ |
    ⟨_, r, outcome, report, _, _, same⟩
  · rwa [same]
  · rw [same]
    exact BatchedWriter.counted_mutate counted m
  · rw [same]
    exact BatchedWriter.counted_beginFlush counted kind
  · rw [same]
    have settled := BatchedWriter.counted_settle counted r outcome
    exact ⟨settled.counters, settled.maxima⟩

theorem counted_run {s : Writing ι} {i : ι} (counted : (s.writers i).Counted)
    (actions : List (Action ι)) : ((s.run actions).writers i).Counted := by
  induction actions generalizing s with
  | nil => exact counted
  | cons a actions ih => exact ih (counted_step counted a)

end Writing

end CallTelemetry.Pending
