import CallTelemetry.Proofs.Pending.Ledger

/-! Requests in any order. Each request of a direct writer alters one cell, and those for cells of
one kind may change places: sums and maxima do not tell in which order they came about. -/
namespace CallTelemetry

open Pending

namespace Store

/-- A store goes on to another by carrying out requests, in this order. How many requests have
arrived, and how slow the store is, is left open. -/
def Carries (s : Store) (order : List Request) (s' : Store) : Prop :=
  ∃ requests latency, s' = { order.foldl apply s with requests, latency }

/-- Neither is looked at when a request is carried out. -/
theorem apply_with (s : Store) (requests : Nat) (latency : Option Nat) (r : Request) :
    ({ s with requests, latency } : Store).apply r = { s.apply r with requests, latency } := by
  cases r with
  | put => rfl
  | maximum => rfl
  | increments table rows =>
    have rest : rows.foldl (increment table) { s with requests, latency } =
        { rows.foldl (increment table) s with requests, latency } := by
      induction rows generalizing s with
      | nil => rfl
      | cons i rows ih => exact ih (increment table s i)
    simp only [apply, rest]

namespace Carries

variable {s s' : Store} {order : List Request}

theorem rest (s : Store) : s.Carries [] s := ⟨s.requests, s.latency, rfl⟩

theorem arrive (carries : s.Carries order s') : s.Carries order s'.arrive := by
  obtain ⟨requests, latency, rfl⟩ := carries
  exact ⟨requests + 1, latency, rfl⟩

theorem slow (carries : s.Carries order s') (latency : Option Nat) :
    s.Carries order { s' with latency } := by
  obtain ⟨requests, _, rfl⟩ := carries
  exact ⟨requests, latency, rfl⟩

theorem apply (carries : s.Carries order s') (r : Request) :
    s.Carries (order ++ [r]) (s'.apply r) := by
  obtain ⟨requests, latency, rfl⟩ := carries
  refine ⟨requests, latency, ?_⟩
  rw [apply_with, List.foldl_append]
  rfl

/-- What a cell of one kind comes to, whatever the order. -/
theorem stored (carries : s.Carries order s') (g : Ledger) {c : Cell}
    (alone : ∀ r ∈ order, c ∈ r.cells → r.kind? = some g.kind) :
    g.stored (s'.cell? c) =
      g.join (g.stored (s.cell? c)) (g.total c (order.flatMap (·.changes g.kind))) := by
  obtain ⟨requests, latency, rfl⟩ := carries
  have applied : g.stored ((order.foldl Store.apply s).cell? c) =
      g.join (g.stored (s.cell? c)) (g.total c (order.flatMap (·.changes g.kind))) := by
    induction order generalizing s with
    | nil => exact (g.join_nothing _).symm
    | cons r order ih =>
      have first := g.stored_apply s r c (alone r List.mem_cons_self)
      have later := ih (s := s.apply r) fun r' member =>
        alone r' (List.mem_cons_of_mem _ member)
      rw [List.foldl_cons, later, first, List.flatMap_cons, g.total_append, g.assoc]
  exact applied

end Carries

end Store

namespace Pending.DirectWriter

/-- The cell that a mutation is written to, if its row key can take a salt. -/
def cell? (w : DirectWriter) (m : Mutation) : Option Cell :=
  match w.salting.writeSalt (m.row.behind Salting.width) with
  | .ok row => some ⟨w.table, row, w.family, m.column⟩
  | .error _ => none

/-- The changes of one kind that mutations ask for, with their cells. -/
def asked (w : DirectWriter) (kind : Flushing) (ms : List Mutation) : List (Cell × Int64) :=
  ms.filterMap fun m => if m.kind = kind then (w.cell? m).map (·, m.value) else none

/-- A request makes the one change that it is made for. -/
theorem request?_cases (w : DirectWriter) (m : Mutation) :
    (w.cell? m = none ∧ w.request? m = none) ∨
      ∃ c r, w.cell? m = some c ∧ w.request? m = some r ∧ r.cells = [c] ∧
        r.kind? = some m.kind ∧
        ∀ kind, r.changes kind = if m.kind = kind then [(c, m.value)] else [] := by
  unfold cell? request? Mutation.kind Mutation.value
  cases w.salting.writeSalt (m.row.behind Salting.width) with
  | error e => exact .inl ⟨rfl, rfl⟩
  | ok row =>
    cases m.change with
    | add delta => exact .inr ⟨_, _, rfl, rfl, rfl, rfl, fun kind => by cases kind <;> rfl⟩
    | raise value => exact .inr ⟨_, _, rfl, rfl, rfl, rfl, fun kind => by cases kind <;> rfl⟩

theorem changes_requests (w : DirectWriter) (kind : Flushing) (ms : List Mutation) :
    (ms.filterMap w.request?).flatMap (·.changes kind) = w.asked kind ms := by
  induction ms with
  | nil => rfl
  | cons m ms ih =>
    unfold asked at ih ⊢
    rcases w.request?_cases m with ⟨nowhere, none⟩ | ⟨c, r, here, made, _, _, changes⟩
    · simp [nowhere, none, ih]
    · by_cases same : m.kind = kind
      · simp [made, changes, here, same, ih]
      · simp [made, changes, same, ih]

/-- Requests for a cell are of the kind of the mutations for it. -/
theorem kind_of_requests {w : DirectWriter} {ms : List Mutation} {c : Cell} {kind : Flushing}
    (alone : ∀ m ∈ ms, w.cell? m = some c → m.kind = kind) :
    ∀ r ∈ ms.filterMap w.request?, c ∈ r.cells → r.kind? = some kind := by
  intro r member touched
  obtain ⟨m, called, made⟩ := List.mem_filterMap.1 member
  rcases w.request?_cases m with ⟨_, none⟩ | ⟨c', r', here, made', cells, sort, _⟩
  · rw [none] at made
    cases made
  · obtain rfl := Option.some.inj (made'.symm.trans made)
    rw [cells, List.mem_singleton] at touched
    subst touched
    rw [sort, alone m called here]

end Pending.DirectWriter

namespace Store

/-- Changes one cell, whose row is salted. -/
def alterCell (s : Store) (c : Cell) (f : Option Bytes → Option Bytes) : Store :=
  s.updateRow c.table c.row fun cells => cells.alter ⟨c.family, c.column⟩ f

theorem alterCell_comm (s : Store) {c c' : Cell} {f g : Option Bytes → Option Bytes}
    (swap : c = c' → ∀ cell, g (f cell) = f (g cell)) :
    (s.alterCell c f).alterCell c' g = (s.alterCell c' g).alterCell c f := by
  simp only [alterCell, updateRow, Store.mk.injEq, and_true]
  refine SortedMap.update_comm s.tables (fun _ => rfl) fun table rows => ?_
  refine SortedMap.update_comm rows (fun _ => rfl) fun row cells => ?_
  refine SortedMap.alter_comm cells fun name cell => ?_
  apply swap
  cases c
  cases c'
  simp_all

theorem added_comm (cell : Option Bytes) (a b : Int64) :
    added (added cell a) b = added (added cell b) a := by
  have sum : counter cell 0 + a + b = counter cell 0 + b + a := by
    rw [Int64.add_assoc, Int64.add_comm a, ← Int64.add_assoc]
  have word (x : Int64) : counter (some (Bytes.ofInt64 x)) 0 = x := by simp [counter]
  simp only [added, word, sum]

theorem raised_comm (cell : Option Bytes) (a b : Int64) :
    raised (some (raised cell a)) b = raised (some (raised cell b)) a := by
  have word (x : Int64) : counter (some (Bytes.ofInt64 x)) Int64.minValue = x := by simp [counter]
  unfold raised
  simp only [Option.getD_some, Int64.lt_iff_toInt_lt]
  generalize cell.getD (Bytes.ofInt64 Int64.minValue) = stored
  by_cases first : (counter (some stored) Int64.minValue).toInt < a.toInt <;>
    by_cases second : (counter (some stored) Int64.minValue).toInt < b.toInt <;>
    simp only [first, second, if_true, if_false, word]
  · rcases Int.lt_trichotomy a.toInt b.toInt with less | same | more
    · rw [if_pos less, if_neg (by omega)]
    · rw [Int64.toInt_inj.1 same]
    · rw [if_neg (by omega), if_pos more]
  · rw [if_neg (by omega)]
  · rw [if_neg (by omega)]

end Store

namespace Pending

/-- What a mutation does to its cell. -/
def Mutation.effect (m : Mutation) (cell : Option Bytes) : Option Bytes :=
  match m.change with
  | .add delta => Store.added cell delta
  | .raise value => some (Store.raised cell value)

theorem Mutation.effect_comm {m m' : Mutation} (same : m.kind = m'.kind) (cell : Option Bytes) :
    m'.effect (m.effect cell) = m.effect (m'.effect cell) := by
  unfold kind at same
  unfold effect
  cases first : m.change with
  | add a =>
    cases second : m'.change with
    | add b => exact Store.added_comm cell a b
    | raise b => simp [first, second] at same
  | raise a =>
    cases second : m'.change with
    | add b => simp [first, second] at same
    | raise b => exact congrArg some (Store.raised_comm cell a b)

namespace DirectWriter

/-- A request alters the cell of its mutation. -/
theorem apply_request {w : DirectWriter} {m : Mutation} {r : Request}
    (made : w.request? m = some r) :
    ∃ c count, w.cell? m = some c ∧ ∀ s : Store, s.apply r =
      { s.alterCell c m.effect with appliedIncrements := s.appliedIncrements + count } := by
  unfold request? at made
  unfold cell? Mutation.effect
  cases row : w.salting.writeSalt (m.row.behind Salting.width) with
  | error e => simp [row] at made
  | ok row' =>
    simp only [row, Option.some.injEq] at made
    subst made
    cases m.change with
    | add delta => exact ⟨_, 1, rfl, fun s => rfl⟩
    | raise value => exact ⟨_, 0, rfl, fun s => rfl⟩

/-- Whether no two mutations of different kinds have one cell. -/
def Apart (w : DirectWriter) (ms : List Mutation) : Prop :=
  ∀ m ∈ ms, ∀ m' ∈ ms, (w.cell? m).isSome → w.cell? m = w.cell? m' → m.kind = m'.kind

instance (w : DirectWriter) (ms : List Mutation) : Decidable (w.Apart ms) :=
  inferInstanceAs (Decidable (∀ m ∈ ms, ∀ m' ∈ ms, _ → _ → _))

theorem apply_comm {w : DirectWriter} {ms : List Mutation} (apart : w.Apart ms) (s : Store)
    {r r' : Request} (first : r ∈ ms.filterMap w.request?)
    (second : r' ∈ ms.filterMap w.request?) : (s.apply r).apply r' = (s.apply r').apply r := by
  obtain ⟨m, called, made⟩ := List.mem_filterMap.1 first
  obtain ⟨m', called', made'⟩ := List.mem_filterMap.1 second
  obtain ⟨c, count, here, applied⟩ := apply_request made
  obtain ⟨c', count', here', applied'⟩ := apply_request made'
  have swap : (s.alterCell c m.effect).alterCell c' m'.effect =
      (s.alterCell c' m'.effect).alterCell c m.effect := by
    apply Store.alterCell_comm
    rintro rfl
    exact Mutation.effect_comm (apart m called m' called' (by simp [here]) (here.trans here'.symm))
  rw [applied, applied', applied, applied']
  simp only [Store.alterCell, Store.updateRow, Store.mk.injEq, and_true, true_and] at swap ⊢
  exact ⟨swap, by omega⟩

end DirectWriter

end Pending

namespace Store.Carries

variable {s s' : Store} {order : List Request} {w : DirectWriter} {ms : List Mutation}

/-- The requests of mutations whose kinds keep apart may as well be carried out in the order of
these. -/
theorem reorder (carries : s.Carries order s') (perm : order.Perm (ms.filterMap w.request?))
    (apart : w.Apart ms) : s.Carries (ms.filterMap w.request?) s' := by
  obtain ⟨requests, latency, rfl⟩ := carries
  have same : order.foldl Store.apply s = (ms.filterMap w.request?).foldl Store.apply s := by
    apply perm.foldl_eq'
    intro r first r' second s
    exact DirectWriter.apply_comm apart s (perm.mem_iff.1 first) (perm.mem_iff.1 second)
  exact ⟨requests, latency, by rw [same]⟩

/-- A cell of one kind comes to what the mutations ask for it. -/
theorem stored_asked (carries : s.Carries order s') (perm : order.Perm (ms.filterMap w.request?))
    (g : Ledger) {c : Cell} (alone : ∀ m ∈ ms, w.cell? m = some c → m.kind = g.kind) :
    g.stored (s'.cell? c) = g.join (g.stored (s.cell? c)) (g.total c (w.asked g.kind ms)) := by
  have kinds := DirectWriter.kind_of_requests alone
  rw [carries.stored g fun r member => kinds r (perm.mem_iff.1 member),
    g.total_perm (perm.flatMap_right _), w.changes_requests]

end Store.Carries

end CallTelemetry
