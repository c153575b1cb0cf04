import CallTelemetry.Proofs.Pending.Draining
import CallTelemetry.Proofs.Pending.Merging

/-! What the operations of a batched writer do to its pending cells. A change is put in, and what a
failed request held is put back, one cell after another; a flush takes everything out and makes
requests of it that can be put back. -/
namespace CallTelemetry

open Pending

namespace Pending

namespace Counters

/-- Adds to one cell after another, as far as there is room. -/
def addAll (limit : Option Nat) (l : List (Cell × Int64)) (c : Counters) : Counters :=
  l.foldl (fun c e => (c.add limit e.1 e.2).2) c

/-- The additions of a list for which there is no room. -/
def refusals (limit : Option Nat) : List (Cell × Int64) → Counters → List (Cell × Int64)
  | [], _ => []
  | e :: l, c =>
    (if (c.add limit e.1 e.2).1 then [] else [e]) ++ refusals limit l (c.add limit e.1 e.2).2

theorem held_add (limit : Option Nat) (c : Counters) (e : Cell × Int64) (x : Cell) :
    (c.add limit e.1 e.2).2.held x + amount x (if (c.add limit e.1 e.2).1 then [] else [e]) =
      c.held x + amount x [e] := by
  cases result : c.add limit e.1 e.2 with
  | mk accepted after =>
    cases accepted with
    | true =>
      rw [held_of_accepted result]
      by_cases same : e.1 = x
      · simp [amount_cons, same]
      · simp [amount_cons, same, Ne.symm same]
    | false => simp [add_refused result]

/-- What is put in is held or refused. -/
theorem held_addAll (limit : Option Nat) (l : List (Cell × Int64)) (c : Counters) (x : Cell) :
    (c.addAll limit l).held x + amount x (refusals limit l c) = c.held x + amount x l := by
  induction l generalizing c with
  | nil => rfl
  | cons e l ih =>
    have first := held_add limit c e x
    have rest := ih (c.add limit e.1 e.2).2
    rw [refusals, amount_append, ← List.singleton_append, amount_append]
    change ((c.add limit e.1 e.2).2.addAll limit l).held x + _ = _
    grind

theorem get?_addAll {limit : Option Nat} {l : List (Cell × Int64)} {c : Counters} {x : Cell}
    (present : (c.addAll limit l).cells.get? x ≠ none) :
    c.cells.get? x ≠ none ∨ ∃ e ∈ l, e.1 = x := by
  induction l generalizing c with
  | nil => exact .inl present
  | cons e l ih =>
    rcases ih present with present | ⟨e', member, same⟩
    · by_cases here : e.1 = x
      · exact .inr ⟨e, List.mem_cons_self, here⟩
      · exact .inl (get?_add_of_ne limit c e.2 (Ne.symm here) ▸ present)
    · exact .inr ⟨e', List.mem_cons_of_mem _ member, same⟩

/-- A drain takes what each cell holds; a cell that it leaves out held zero. -/
theorem amount_drain (c : Counters) (x : Cell) : amount x c.drain.1 = c.held x := by
  have entries (l : List (Cell × Int64)) (nodup : (l.map (·.1)).Nodup) :
      amount x (l.filter (·.2 ≠ 0)) = (SortedMap.find l x).getD 0 := by
    induction l with
    | nil => rfl
    | cons e l ih =>
      obtain ⟨new, rest⟩ := List.nodup_cons.1 nodup
      have filtered : amount x ((e :: l).filter (·.2 ≠ 0)) =
          (if e.1 = x then e.2 else 0) + amount x (l.filter (·.2 ≠ 0)) := by
        rw [List.filter_cons]
        by_cases zero : e.2 = 0
        · simp [zero]
        · simp [zero, amount_cons]
      rw [filtered]
      by_cases same : e.1 = x
      · have absent : ∀ e' ∈ l.filter (·.2 ≠ 0), e'.1 ≠ x := fun e' member h =>
          new (List.mem_map.2 ⟨e', (List.mem_filter.1 member).1, h.trans same.symm⟩)
        rw [amount_eq_zero absent, ← same, SortedMap.find_cons_self]
        simp
      · rw [SortedMap.find_cons_ne e.2 l (Ne.symm same), ih rest]
        simp [same]
  rw [drain_taken, entries c.cells.entries c.cells.keys_nodup]
  rfl

end Counters

namespace Maxima

/-- Raises one cell after another, as far as there is room. -/
def raiseAll (limit : Option Nat) (l : List (Cell × Int64)) (m : Maxima) : Maxima :=
  l.foldl (fun m e => (m.raise limit e.1 e.2).2) m

/-- The values of a list for which there is no room. -/
def refusals (limit : Option Nat) : List (Cell × Int64) → Maxima → List (Cell × Int64)
  | [], _ => []
  | e :: l, m =>
    (if (m.raise limit e.1 e.2).1 then [] else [e]) ++ refusals limit l (m.raise limit e.1 e.2).2

theorem held_raise (limit : Option Nat) (m : Maxima) (e : Cell × Int64) (x : Cell) :
    Option.merge max ((m.raise limit e.1 e.2).2.cells.get? x)
        (peak x (if (m.raise limit e.1 e.2).1 then [] else [e])) =
      Option.merge max (m.cells.get? x) (peak x [e]) := by
  cases result : m.raise limit e.1 e.2 with
  | mk accepted after =>
    cases accepted with
    | true =>
      rw [raise_accepted result]
      by_cases same : e.1 = x
      · cases found : m.cells.get? x <;> simp [peak_cons, same, found]
      · simp [peak_cons, same, Ne.symm same]
    | false => simp [raise_refused result]

/-- What is put in is held or refused. -/
theorem held_raiseAll (limit : Option Nat) (l : List (Cell × Int64)) (m : Maxima) (x : Cell) :
    Option.merge max ((m.raiseAll limit l).cells.get? x) (peak x (refusals limit l m)) =
      Option.merge max (m.cells.get? x) (peak x l) := by
  induction l generalizing m with
  | nil => rfl
  | cons e l ih =>
    let m' := (m.raise limit e.1 e.2).2
    let here := peak x (if (m.raise limit e.1 e.2).1 then [] else [e])
    let later := peak x (refusals limit l m')
    have first : Option.merge max (m'.cells.get? x) here = _ := held_raise limit m e x
    have rest : Option.merge max ((m'.raiseAll limit l).cells.get? x) later = _ := ih m'
    rw [refusals, peak_append, ← List.singleton_append, peak_append]
    calc Option.merge max ((m'.raiseAll limit l).cells.get? x) (Option.merge max here later)
      _ = Option.merge max (Option.merge max ((m'.raiseAll limit l).cells.get? x) later) here := by
        ac_rfl
      _ = Option.merge max (Option.merge max (m'.cells.get? x) here) (peak x l) := by
        rw [rest]
        ac_rfl
      _ = Option.merge max (m.cells.get? x) (Option.merge max (peak x [e]) (peak x l)) := by
        rw [first]
        ac_rfl

theorem get?_raiseAll {limit : Option Nat} {l : List (Cell × Int64)} {m : Maxima} {x : Cell}
    (present : (m.raiseAll limit l).cells.get? x ≠ none) :
    m.cells.get? x ≠ none ∨ ∃ e ∈ l, e.1 = x := by
  induction l generalizing m with
  | nil => exact .inl present
  | cons e l ih =>
    rcases ih present with present | ⟨e', member, same⟩
    · by_cases here : e.1 = x
      · exact .inr ⟨e, List.mem_cons_self, here⟩
      · exact .inl (get?_raise_of_ne limit m e.2 (Ne.symm here) ▸ present)
    · exact .inr ⟨e', List.mem_cons_of_mem _ member, same⟩

theorem peak_drain (m : Maxima) (x : Cell) : peak x m.drain.1 = m.cells.get? x := by
  have entries (l : List (Cell × Int64)) (nodup : (l.map (·.1)).Nodup) :
      peak x l = SortedMap.find l x := by
    induction l with
    | nil => rfl
    | cons e l ih =>
      obtain ⟨new, rest⟩ := List.nodup_cons.1 nodup
      rw [peak_cons]
      by_cases same : e.1 = x
      · have absent : ∀ e' ∈ l, e'.1 ≠ x := fun e' member h =>
          new (List.mem_map.2 ⟨e', member, h.trans same.symm⟩)
        have alone : peak x l = none := Tally.peaks.total_eq_nothing absent
        rw [alone, ← same, SortedMap.find_cons_self]
        simp
      · rw [SortedMap.find_cons_ne e.2 l (Ne.symm same), ih rest]
        simp [same]
  rw [drain_taken, entries m.cells.entries m.cells.keys_nodup]
  rfl

end Maxima

end Pending

namespace Pending

def Mutation.kind (m : Mutation) : Flushing :=
  match m.change with
  | .add _ => .counters
  | .raise _ => .maxima

def Mutation.value (m : Mutation) : Int64 :=
  match m.change with
  | .add delta => delta
  | .raise value => value

namespace BatchedWriter

/-- The writer as it was built. -/
def bare (w : BatchedWriter) : BatchedWriter :=
  { w with counters := .empty, maxima := .empty, report := .empty }

/-- What does not look at the pending cells is the same for writers that are built alike. -/
theorem same_of_bare {α : Type} {w w' : BatchedWriter} (same : w'.bare = w.bare)
    {f : BatchedWriter → α} (forgets : ∀ w, f w.bare = f w) : f w' = f w := by
  rw [← forgets w', same, forgets]

def pending (w : BatchedWriter) : Flushing → SortedMap Cell Int64
  | .counters => w.counters.cells
  | .maxima => w.maxima.cells

def target (w : BatchedWriter) (m : Mutation) : Cell := w.cell (m.row.behind 0) m.column

/-- What a mutation changes in pending counters, or in pending maxima. -/
def changes (w : BatchedWriter) (m : Mutation) (kind : Flushing) : List (Cell × Int64) :=
  if m.kind = kind then [(w.target m, m.value)] else []

def returnedRow (w : BatchedWriter) (table : TableName) (i : Increment) : List (Cell × Int64) :=
  match Salting.unsalted i.row with
  | .ok row => Increment.additions table { i with row, family := w.family }
  | .error _ => []

def returnedUpdate (w : BatchedWriter) (table : TableName) (m : Maximum) : List (Cell × Int64) :=
  match Salting.unsalted m.row with
  | .ok row => [(⟨table, row, w.family, m.name.qualifier⟩, m.value)]
  | .error _ => []

/-- What goes back to the pending cells when a request fails. -/
def returned (w : BatchedWriter) (r : Request) (kind : Flushing) : List (Cell × Int64) :=
  match kind, r with
  | .counters, .increments table rows => rows.flatMap (w.returnedRow table)
  | .maxima, .maximum table m => w.returnedUpdate table m
  | _, _ => []

/-- What goes back to the pending cells when a request has ended. -/
def restored (w : BatchedWriter) (r : Request) (outcome : Except StoreError Unit)
    (kind : Flushing) : List (Cell × Int64) :=
  match outcome with
  | .ok _ => []
  | .error _ => w.returned r kind

/-! The effects of a mutation. -/

theorem counters_mutate (w : BatchedWriter) (m : Mutation) :
    (w.mutate m).counters = w.counters.addAll w.counterLimit (w.changes m .counters) := by
  unfold mutate
  cases change : m.change with
  | add delta =>
    simp only [changes, Mutation.kind, Mutation.value, change, Counters.addAll, increment, target,
      ↓reduceIte, List.foldl_cons, List.foldl_nil]
    split
    next result => rw [result]
    next result => rw [result, Counters.add_refused result]
  | raise value =>
    simp only [changes, Mutation.kind, change, Counters.addAll, raise, reduceCtorEq, ↓reduceIte,
      List.foldl_nil]
    split <;> rfl

theorem maxima_mutate (w : BatchedWriter) (m : Mutation) :
    (w.mutate m).maxima = w.maxima.raiseAll w.maximumLimit (w.changes m .maxima) := by
  unfold mutate
  cases change : m.change with
  | add delta =>
    simp only [changes, Mutation.kind, change, Maxima.raiseAll, increment, reduceCtorEq,
      ↓reduceIte, List.foldl_nil]
    split <;> rfl
  | raise value =>
    simp only [changes, Mutation.kind, Mutation.value, change, Maxima.raiseAll, raise, target,
      ↓reduceIte, List.foldl_cons, List.foldl_nil]
    split
    next result => rw [result]
    next result => rw [result, Maxima.raise_refused result]

theorem bare_mutate (w : BatchedWriter) (m : Mutation) : (w.mutate m).bare = w.bare := by
  unfold mutate
  cases m.change with
  | add delta =>
    simp only [increment]
    split <;> rfl
  | raise value =>
    simp only [raise]
    split <;> rfl

/-! The effects of the end of a request. -/

theorem counters_restoreIncrement (w : BatchedWriter) (cell : Cell) (delta : Int64) :
    (w.restoreIncrement cell delta).2.counters = (w.counters.add w.counterLimit cell delta).2 := by
  unfold restoreIncrement
  split
  next result => rw [result]
  next result => rw [result, Counters.add_refused result]

/-- Putting an addition back changes counters and report only. -/
theorem frame_restoreIncrement (w : BatchedWriter) (cell : Cell) (delta : Int64) :
    (w.restoreIncrement cell delta).2.bare = w.bare ∧
      (w.restoreIncrement cell delta).2.maxima = w.maxima := by
  unfold restoreIncrement
  split <;> exact ⟨rfl, rfl⟩

/-- Puts back one addition after another. -/
def restoreAll (l : List (Cell × Int64)) (w : BatchedWriter) : BatchedWriter :=
  l.foldl (fun w e => (w.restoreIncrement e.1 e.2).2) w

theorem frame_restoreAll (l : List (Cell × Int64)) (w : BatchedWriter) :
    (w.restoreAll l).bare = w.bare ∧ (w.restoreAll l).maxima = w.maxima := by
  induction l generalizing w with
  | nil => exact ⟨rfl, rfl⟩
  | cons e l ih =>
    have frame := frame_restoreIncrement w e.1 e.2
    exact ⟨(ih _).1.trans frame.1, (ih _).2.trans frame.2⟩

theorem counters_restoreAll (l : List (Cell × Int64)) (w : BatchedWriter) :
    (w.restoreAll l).counters = w.counters.addAll w.counterLimit l := by
  induction l generalizing w with
  | nil => rfl
  | cons e l ih =>
    have limit : (w.restoreIncrement e.1 e.2).2.counterLimit = w.counterLimit :=
      same_of_bare (frame_restoreIncrement w e.1 e.2).1 fun _ => rfl
    refine (ih _).trans ?_
    rw [limit, counters_restoreIncrement]
    rfl

/-- A row goes back addition by addition, into the family of the writer. -/
theorem restoreRow_eq (table : TableName) (w : BatchedWriter) (i : Increment) :
    restoreRow table w i = w.restoreAll (w.returnedRow table i) := by
  have columns (row : Bytes) (l : List (Bytes × Int64)) (w : BatchedWriter) :
      l.foldl (restoreColumn table row) w =
        w.restoreAll (Increment.additions table ⟨row, w.family, l⟩) := by
    induction l generalizing w with
    | nil => rfl
    | cons column l ih =>
      have family : (restoreColumn table row w column).family = w.family :=
        same_of_bare (frame_restoreIncrement w ⟨table, row, w.family, column.1⟩ column.2).1
          fun _ => rfl
      rw [List.foldl_cons, ih, family]
      rfl
  unfold restoreRow returnedRow
  cases Salting.unsalted i.row with
  | ok row => exact columns row i.columns w
  | error => rfl

theorem restoreRows_eq (table : TableName) (rows : List Increment) (w : BatchedWriter) :
    rows.foldl (restoreRow table) w = w.restoreAll (rows.flatMap (w.returnedRow table)) := by
  induction rows generalizing w with
  | nil => rfl
  | cons i rows ih =>
    have frame : (restoreRow table w i).bare = w.bare := by
      rw [restoreRow_eq, (frame_restoreAll _ w).1]
    have same : (restoreRow table w i).returnedRow table = w.returnedRow table :=
      same_of_bare frame (f := fun w => w.returnedRow table) fun _ => rfl
    rw [List.foldl_cons, ih, same, restoreRow_eq]
    exact List.foldl_append.symm

/-- A failed request of additions is reported, and all that goes back is put back. -/
theorem settle_increments_error (w : BatchedWriter) (table : TableName) (rows : List Increment)
    (e : StoreError) :
    w.settle (.increments table rows) (.error e) =
      { w with report := w.report.addFailure (Increment.cellCount rows) }.restoreAll
        (w.returned (.increments table rows) .counters) :=
  restoreRows_eq table rows _

theorem frame_restoreUpdate (table : TableName) (w : BatchedWriter) (m : Maximum) :
    (restoreUpdate table w m).bare = w.bare ∧
      (restoreUpdate table w m).counters = w.counters := by
  unfold restoreUpdate restoreMaximum
  split
  · split <;> exact ⟨rfl, rfl⟩
  · exact ⟨rfl, rfl⟩

theorem maxima_restoreUpdate (table : TableName) (w : BatchedWriter) (m : Maximum) :
    (restoreUpdate table w m).maxima =
      w.maxima.raiseAll w.maximumLimit (w.returnedUpdate table m) := by
  unfold restoreUpdate returnedUpdate restoreMaximum
  cases Salting.unsalted m.row with
  | error => rfl
  | ok row =>
    simp only [Maxima.raiseAll, List.foldl_cons, List.foldl_nil]
    split
    next result => rw [result]
    next result => rw [result, Maxima.raise_refused result]

theorem bare_settle (w : BatchedWriter) (r : Request) (outcome : Except StoreError Unit) :
    (w.settle r outcome).bare = w.bare := by
  cases outcome with
  | ok => cases r <;> rfl
  | error =>
    cases r with
    | put => rfl
    | increments table rows =>
      rw [settle_increments_error]
      exact (frame_restoreAll _ _).1
    | maximum table m => exact (frame_restoreUpdate table _ m).1

theorem counters_settle (w : BatchedWriter) (r : Request) (outcome : Except StoreError Unit) :
    (w.settle r outcome).counters =
      w.counters.addAll w.counterLimit (w.restored r outcome .counters) := by
  cases outcome with
  | ok => cases r <;> rfl
  | error =>
    cases r with
    | put => rfl
    | increments table rows =>
      rw [settle_increments_error]
      exact counters_restoreAll _ _
    | maximum table m => exact (frame_restoreUpdate table _ m).2

theorem maxima_settle (w : BatchedWriter) (r : Request) (outcome : Except StoreError Unit) :
    (w.settle r outcome).maxima =
      w.maxima.raiseAll w.maximumLimit (w.restored r outcome .maxima) := by
  cases outcome with
  | ok => cases r <;> rfl
  | error =>
    cases r with
    | put => rfl
    | increments table rows =>
      rw [settle_increments_error]
      exact (frame_restoreAll _ _).2
    | maximum table m => exact maxima_restoreUpdate table _ m

theorem settle_ok (w : BatchedWriter) (r : Request) :
    ∃ report, w.settle r (.ok ()) = { w with report } := by
  cases r with
  | increments table rows => exact ⟨_, rfl⟩
  | put => exact ⟨w.report, rfl⟩
  | maximum => exact ⟨w.report, rfl⟩

/-! The effects of the beginning and the end of a flush. -/

theorem bare_beginFlush (w : BatchedWriter) (kind : Flushing) :
    (w.beginFlush kind).2.bare = w.bare := by
  cases kind <;> rfl

theorem pending_beginFlush (w : BatchedWriter) (kind kind' : Flushing) :
    (w.beginFlush kind).2.pending kind' = if kind' = kind then .empty else w.pending kind' := by
  cases kind <;> cases kind'
  · exact w.counters.drain_rest
  · rfl
  · rfl
  · exact w.maxima.drain_rest

/-! Where pending changes come from. -/

theorem pending_origin {w w' : BatchedWriter} {entries : Flushing → List (Cell × Int64)}
    (counters : w'.counters = w.counters.addAll w.counterLimit (entries .counters))
    (maxima : w'.maxima = w.maxima.raiseAll w.maximumLimit (entries .maxima)) {kind : Flushing}
    {x : Cell} (present : (w'.pending kind).get? x ≠ none) :
    (w.pending kind).get? x ≠ none ∨ ∃ e ∈ entries kind, e.1 = x := by
  cases kind with
  | counters =>
    rw [pending, counters] at present
    exact Counters.get?_addAll present
  | maxima =>
    rw [pending, maxima] at present
    exact Maxima.get?_raiseAll present

/-- Whether a cell lies in the table and family of a writer. -/
def owns (w : BatchedWriter) (x : Cell) : Prop := x.table = w.table ∧ x.family = w.family

/-- A request as a writer makes them: it changes what would go back to the writer's own cells. -/
structure Formed (w : BatchedWriter) (r : Request) : Prop where
  changes : ∀ kind, r.changes kind = (w.returned r kind).map (saltedEntry w.salting)
  owned : ∀ kind, ∀ e ∈ w.returned r kind, w.owns e.1
  noPut : ∀ table row name value, r ≠ .put table row name value

theorem Formed.of_bare {w w' : BatchedWriter} {r : Request} (formed : w.Formed r)
    (same : w'.bare = w.bare) : w'.Formed r := by
  have formed' : w.bare.Formed r := ⟨formed.changes, formed.owned, formed.noPut⟩
  rw [← same] at formed'
  exact ⟨formed'.changes, formed'.owned, formed'.noPut⟩

theorem returnedRow_additions {w : BatchedWriter} {table : TableName} {i : Increment} {key : Bytes}
    (row : i.row = w.salting.salted key) (family : i.family = w.family) :
    i.additions table = (w.returnedRow table i).map (saltedEntry w.salting) := by
  have unsalted : Salting.unsalted i.row = .ok key := by
    rw [row]
    rfl
  rw [returnedRow, unsalted]
  simp [Increment.additions, saltedEntry, Cell.salted, row, family]

theorem returnedRow_owned {w : BatchedWriter} {i : Increment} {e : Cell × Int64}
    (member : e ∈ w.returnedRow w.table i) : w.owns e.1 := by
  unfold returnedRow at member
  split at member
  · obtain ⟨column, _, rfl⟩ := List.mem_map.1 member
    exact ⟨rfl, rfl⟩
  · simp at member

theorem formed_increments {w : BatchedWriter} {drained : List (Cell × Int64)}
    (owned : ∀ e ∈ drained, w.owns e.1) {r : Request} (member : r ∈ w.incrementRequests drained) :
    w.Formed r := by
  obtain ⟨table, rows, rfl, origin⟩ := incrementRequests_origin member
  have row (i : Increment) (inside : i ∈ rows) :
      table = w.table ∧ i.additions table = (w.returnedRow table i).map (saltedEntry w.salting) := by
    obtain ⟨a, source, same, key, family⟩ := origin i inside
    obtain ⟨ownTable, ownFamily⟩ := owned a source
    exact ⟨same.trans ownTable, returnedRow_additions key (family.trans ownFamily)⟩
  refine ⟨fun kind => ?_, fun kind e back => ?_, by simp⟩
  · cases kind with
    | counters =>
      change rows.flatMap (Increment.additions table) =
        (rows.flatMap (w.returnedRow table)).map (saltedEntry w.salting)
      rw [List.map_flatMap, List.flatMap_def, List.flatMap_def]
      exact congrArg _ (List.map_congr_left fun i inside => (row i inside).2)
    | maxima => rfl
  · cases kind with
    | counters =>
      obtain ⟨i, inside, back⟩ := List.mem_flatMap.1 back
      obtain ⟨rfl, _⟩ := row i inside
      exact returnedRow_owned back
    | maxima => simp [returned] at back

theorem formed_maximum {w : BatchedWriter} {e : Cell × Int64} (owned : w.owns e.1) :
    w.Formed (w.maximumRequest e) := by
  obtain ⟨cell, value⟩ := e
  obtain ⟨table, family⟩ := owned
  refine ⟨fun kind => ?_, fun kind e back => ?_, by simp [maximumRequest]⟩
  · cases kind with
    | counters => rfl
    | maxima =>
      change [_] = [_]
      rw [← family]
      rfl
  · cases kind with
    | counters => simp [returned, maximumRequest] at back
    | maxima =>
      obtain rfl := List.mem_singleton.1 back
      exact ⟨table, rfl⟩

/-- What a flush takes out of the pending cells. -/
def drained (w : BatchedWriter) : Flushing → List (Cell × Int64)
  | .counters => w.counters.drain.1
  | .maxima => w.maxima.drain.1

theorem pending_of_drained {w : BatchedWriter} {kind : Flushing} {e : Cell × Int64}
    (member : e ∈ w.drained kind) : (w.pending kind).get? e.1 = some e.2 := by
  cases kind with
  | counters =>
    rw [drained, Counters.drain_taken] at member
    exact SortedMap.mem_entries_iff.1 (List.mem_filter.1 member).1
  | maxima =>
    rw [drained, Maxima.drain_taken] at member
    exact SortedMap.mem_entries_iff.1 member

/-- A flush of cells of the writer's own makes requests that it can put back. -/
theorem formed_beginFlush {w : BatchedWriter} {kind : Flushing}
    (owned : ∀ x, (w.pending kind).get? x ≠ none → w.owns x) {r : Request}
    (member : r ∈ (w.beginFlush kind).1) : w.Formed r := by
  have ours (e : Cell × Int64) (taken : e ∈ w.drained kind) : w.owns e.1 :=
    owned e.1 (by simp [pending_of_drained taken])
  cases kind with
  | counters => exact formed_increments ours member
  | maxima =>
    obtain ⟨e, taken, rfl⟩ := List.mem_map.1 member
    exact formed_maximum (ours e taken)

/-- Together the requests of a flush write what it took out of the pending cells. -/
theorem changes_beginFlush (w : BatchedWriter) (kind kind' : Flushing) :
    ((w.beginFlush kind).1.flatMap fun r => r.changes kind').Perm
      (if kind' = kind then (w.drained kind).map (saltedEntry w.salting) else []) := by
  have maximum (l : List (Cell × Int64)) :
      ((l.map w.maximumRequest).flatMap fun r => r.changes kind') =
        if kind' = .maxima then l.map (saltedEntry w.salting) else [] := by
    induction l with
    | nil => cases kind' <;> rfl
    | cons e l ih =>
      rw [List.map_cons, List.flatMap_cons, ih]
      cases kind' <;> rfl
  have increment (l : List Request) (only : ∀ r ∈ l, ∃ table rows, r = .increments table rows) :
      (l.flatMap fun r => r.changes .maxima) = [] := by
    refine List.flatMap_eq_nil_iff.2 fun r member => ?_
    obtain ⟨table, rows, rfl⟩ := only r member
    rfl
  cases kind with
  | counters =>
    cases kind' with
    | counters =>
      have written := incrementRequests_additions w (w.drained .counters)
      exact (List.Perm.of_eq written).trans ((sorted_perm _).map _)
    | maxima =>
      refine List.Perm.of_eq (increment _ fun r member => ?_)
      obtain ⟨table, rows, same, _⟩ := incrementRequests_origin member
      exact ⟨table, rows, same⟩
  | maxima => exact List.Perm.of_eq (maximum _)

end BatchedWriter

end Pending

end CallTelemetry
