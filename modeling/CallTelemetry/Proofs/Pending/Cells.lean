import CallTelemetry.Proofs.Bytes
import CallTelemetry.Proofs.Pending.Tally
import CallTelemetry.Proofs.SortedMap

/-! What requests do to a single cell of the store. A request is read as the list of changes that it
makes to cells, each with its salted row, and its effect on a cell depends on the changes of that
cell alone. -/
namespace CallTelemetry

open Pending

/-- The additions of one row. -/
def Increment.additions (table : TableName) (i : Increment) : List (Cell × Int64) :=
  i.columns.map fun column => (⟨table, i.row, i.family, column.1⟩, column.2)

namespace Request

def additions : Request → List (Cell × Int64)
  | .increments table rows => rows.flatMap (Increment.additions table)
  | _ => []

def raises : Request → List (Cell × Int64)
  | .maximum table m => [(⟨table, m.row, m.name.family, m.name.qualifier⟩, m.value)]
  | _ => []

/-- What a request changes in counters, or in maxima. -/
def changes (r : Request) : Flushing → List (Cell × Int64)
  | .counters => r.additions
  | .maxima => r.raises

/-- What a request has changed when it has ended. -/
def written (r : Request) (outcome : Except StoreError Unit) (kind : Flushing) :
    List (Cell × Int64) :=
  match outcome with
  | .ok _ => r.changes kind
  | .error _ => []

/-- The kind of pending cells that a request can write. -/
def kind? : Request → Option Flushing
  | .put .. => none
  | .increments .. => some .counters
  | .maximum .. => some .maxima

/-- The cells that a request writes. -/
def cells : Request → List Cell
  | .put table row name _ => [⟨table, row, name.family, name.qualifier⟩]
  | r => (r.additions ++ r.raises).map (·.1)

theorem mem_cells_of_change {r : Request} (kind : Flushing) {e : Cell × Int64}
    (member : e ∈ r.changes kind) : e.1 ∈ r.cells := by
  cases r with
  | put => cases kind <;> simp [changes, additions, raises] at member
  | increments =>
    cases kind with
    | counters => exact List.mem_map_of_mem (List.mem_append_left _ member)
    | maxima => simp [changes, raises] at member
  | maximum =>
    cases kind with
    | counters => simp [changes, additions] at member
    | maxima => exact List.mem_map_of_mem (List.mem_append_right _ member)

theorem mem_cells_of_written {r : Request} {outcome : Except StoreError Unit} {kind : Flushing}
    {e : Cell × Int64} (member : e ∈ r.written outcome kind) : e.1 ∈ r.cells := by
  cases outcome with
  | ok => exact mem_cells_of_change kind member
  | error => simp [written] at member

theorem kind?_of_change {r : Request} {kind : Flushing} {e : Cell × Int64}
    (member : e ∈ r.changes kind) : r.kind? = some kind := by
  cases r <;> cases kind <;> first | rfl | simp [changes, additions, raises] at member

end Request

namespace Store

/-- The bytes of a cell, whose row is salted. -/
def cell? (s : Store) (c : Cell) : Option Bytes :=
  ((s.rows c.table).getD c.row .empty).get? ⟨c.family, c.column⟩

/-- The value of a counter; one that is absent is worth zero. -/
def counterAt (s : Store) (c : Cell) : Int64 := counter (s.cell? c) 0

theorem cell?_updateRow (s : Store) (table : TableName) (row : Bytes) (f : Cells → Cells)
    (c : Cell) :
    (s.updateRow table row f).cell? c =
      if c.table = table ∧ c.row = row then
        (f ((s.rows table).getD row .empty)).get? ⟨c.family, c.column⟩
      else s.cell? c := by
  simp only [cell?, rows, updateRow, SortedMap.getD, SortedMap.get?_update]
  by_cases inTable : c.table = table
  · by_cases inRow : c.row = row
    · simp [inTable, inRow, SortedMap.get?_update, SortedMap.getD]
    · simp [inTable, inRow, SortedMap.get?_update]
  · simp [inTable]

/-- What one addition does to the bytes of a counter. -/
def added (cell : Option Bytes) (delta : Int64) : Option Bytes :=
  some (Bytes.ofInt64 (counter cell 0 + delta))

@[simp] theorem counter_added (cell : Option Bytes) (delta : Int64) :
    counter (added cell delta) 0 = counter cell 0 + delta := by
  simp [counter, added]

theorem get?_foldl_addTo (family : Bytes) (columns : List (Bytes × Int64)) (cells : Cells)
    (name : CellName) (table : TableName) (row : Bytes) :
    (columns.foldl (addTo family) cells).get? name =
      (deltas ⟨table, row, name.family, name.qualifier⟩
        (Increment.additions table ⟨row, family, columns⟩)).foldl added (cells.get? name) := by
  induction columns generalizing cells with
  | nil => rfl
  | cons column columns ih =>
    rw [List.foldl_cons, ih]
    simp only [Increment.additions, List.map_cons, deltas_cons, addTo, SortedMap.get?_alter]
    cases name with
    | mk nameFamily qualifier =>
      by_cases same : family = nameFamily ∧ column.1 = qualifier
      · simp [same, added]
      · have apart : ¬(nameFamily = family ∧ qualifier = column.1) :=
          fun h => same ⟨h.1.symm, h.2.symm⟩
        simp [same, apart]

theorem cell?_increment (table : TableName) (s : Store) (i : Increment) (c : Cell) :
    (increment table s i).cell? c = (deltas c (i.additions table)).foldl added (s.cell? c) := by
  rw [increment, cell?_updateRow]
  split
  next here =>
    rw [get?_foldl_addTo i.family i.columns _ _ table i.row, cell?, here.1, here.2]
    cases c
    obtain ⟨rfl, rfl⟩ := here
    rfl
  next elsewhere =>
    have none : deltas c (i.additions table) = [] := by
      rw [deltas_eq_nil_iff]
      intro e member
      obtain ⟨column, _, rfl⟩ := List.mem_map.1 member
      rintro rfl
      exact elsewhere ⟨rfl, rfl⟩
    rw [none]
    rfl

theorem foldl_added (cell : Option Bytes) (l : List Int64) :
    l.foldl added cell =
      if l = [] then cell else some (Bytes.ofInt64 (counter cell 0 + l.foldr (· + ·) 0)) := by
  induction l generalizing cell with
  | nil => rfl
  | cons delta l ih =>
    rw [List.foldl_cons, ih]
    by_cases last : l = []
    · simp [last, added]
    · simp [last, Int64.add_assoc]

@[simp] theorem cell?_arrive (s : Store) (c : Cell) : s.arrive.cell? c = s.cell? c := rfl

/-- A counter that a request adds to holds the sum afterwards, and is there. -/
theorem cell?_apply_increments (s : Store) (table : TableName) (rows : List Increment) (c : Cell) :
    (s.apply (.increments table rows)).cell? c =
      if deltas c (Request.increments table rows).additions = [] then s.cell? c
      else some (Bytes.ofInt64
        (s.counterAt c + amount c (Request.increments table rows).additions)) := by
  have fold (s : Store) : (rows.foldl (increment table) s).cell? c =
      (deltas c (rows.flatMap (Increment.additions table))).foldl added (s.cell? c) := by
    induction rows generalizing s with
    | nil => rfl
    | cons i rows ih =>
      rw [List.foldl_cons, ih, cell?_increment, List.flatMap_cons, deltas_append, List.foldl_append]
  exact (fold s).trans (foldl_added _ _)

/-- The bytes that a cell holds after it was raised. -/
def raised (cell : Option Bytes) (value : Int64) : Bytes :=
  let stored := cell.getD (Bytes.ofInt64 Int64.minValue)
  if counter (some stored) Int64.minValue < value then Bytes.ofInt64 value else stored

/-- A cell that is raised keeps its bytes, or gets those of the value. -/
theorem raised_origin (cell : Option Bytes) (value : Int64) :
    cell = some (raised cell value) ∨ raised cell value = Bytes.ofInt64 value := by
  unfold raised
  dsimp only
  split
  next => exact .inr rfl
  next notLess =>
    cases cell with
    | some bytes => exact .inl rfl
    | none =>
      right
      have least : value = Int64.minValue := by
        have notLess := mt Int64.lt_iff_toInt_lt.2 notLess
        have bottom := Int64.toInt_minValue
        have lower := value.minValue_le_toInt
        rw [← Int64.toInt_inj]
        simp [counter] at notLess
        omega
      rw [least]
      rfl

theorem cell?_apply_maximum (s : Store) (table : TableName) (m : Maximum) (c : Cell) :
    (s.apply (.maximum table m)).cell? c =
      if c = ⟨table, m.row, m.name.family, m.name.qualifier⟩ then some (raised (s.cell? c) m.value)
      else s.cell? c := by
  rw [apply, raise, cell?_updateRow]
  by_cases here : c.table = table ∧ c.row = m.row
  · rw [if_pos here, SortedMap.get?_alter]
    by_cases name : (⟨c.family, c.column⟩ : CellName) = m.name
    · have same : c = ⟨table, m.row, m.name.family, m.name.qualifier⟩ := by
        cases c
        simp_all [← name]
      rw [if_pos name, if_pos same, ← name, cell?, here.1, here.2]
      rfl
    · have apart : c ≠ ⟨table, m.row, m.name.family, m.name.qualifier⟩ := by
        rintro rfl
        exact name rfl
      rw [if_neg name, if_neg apart, cell?, here.1, here.2]
  · have apart : c ≠ ⟨table, m.row, m.name.family, m.name.qualifier⟩ := by
      rintro rfl
      exact here ⟨rfl, rfl⟩
    rw [if_neg here, if_neg apart]

theorem cell?_apply_put (s : Store) (table : TableName) (row : Bytes) (name : CellName)
    (value : Bytes) (c : Cell) (apart : c ≠ ⟨table, row, name.family, name.qualifier⟩) :
    (s.apply (.put table row name value)).cell? c = s.cell? c := by
  rw [apply, cell?_updateRow]
  split
  next here =>
    have other : (⟨c.family, c.column⟩ : CellName) ≠ name := by
      rintro rfl
      cases c
      obtain ⟨rfl, rfl⟩ := here
      exact apart rfl
    rw [SortedMap.get?_insert, if_neg other, cell?, here.1, here.2]
  next => rfl

/-- A request leaves the cells alone that it does not name. -/
theorem cell?_apply_of_not_mem {s : Store} {r : Request} {c : Cell} (apart : c ∉ r.cells) :
    (s.apply r).cell? c = s.cell? c := by
  cases r with
  | put table row name value =>
    exact cell?_apply_put s table row name value c (by simpa [Request.cells] using apart)
  | increments table rows =>
    rw [cell?_apply_increments, if_pos]
    rw [deltas_eq_nil_iff]
    rintro e member rfl
    exact apart (Request.mem_cells_of_change .counters member)
  | maximum table m =>
    rw [cell?_apply_maximum, if_neg]
    simpa [Request.cells, Request.additions, Request.raises] using apart

/-- A counter that a request does not raise or overwrite grows by what the request adds. -/
theorem counterAt_apply {s : Store} {r : Request} {c : Cell}
    (counted : c ∈ r.cells → r.kind? = some .counters) :
    (s.apply r).counterAt c = s.counterAt c + amount c r.additions := by
  by_cases touched : c ∈ r.cells
  · cases r with
    | put => simp [Request.kind?] at counted; exact absurd touched counted
    | maximum => simp [Request.kind?] at counted; exact absurd touched counted
    | increments table rows =>
      rw [counterAt, cell?_apply_increments]
      split
      next none => simp [amount_eq_zero (deltas_eq_nil_iff.1 none), counterAt]
      next => simp [counter]
  · have none : ∀ e ∈ r.additions, e.1 ≠ c := by
      rintro e member rfl
      exact touched (r.mem_cells_of_change .counters member)
    rw [counterAt, cell?_apply_of_not_mem touched, amount_eq_zero none, counterAt, Int64.add_zero]

/-- The value that a cell was raised to, if it is there; one that is no word is worth the least. -/
def peakAt (s : Store) (c : Cell) : Option Int64 :=
  (s.cell? c).map fun bytes => counter (some bytes) Int64.minValue

theorem counter_raised (cell : Option Bytes) (value : Int64) :
    counter (some (raised cell value)) Int64.minValue =
      max (counter (some (cell.getD (Bytes.ofInt64 Int64.minValue))) Int64.minValue) value := by
  rw [← Int64.toInt_inj, toInt_max, raised]
  split
  next less =>
    have less := Int64.lt_iff_toInt_lt.1 less
    simp only [counter, Option.bind_some, Bytes.toCounter?_ofInt64, Option.getD_some] at less ⊢
    omega
  next notLess =>
    have notLess := mt Int64.lt_iff_toInt_lt.2 notLess
    omega

theorem peakAt_apply {s : Store} {r : Request} {c : Cell}
    (raised : c ∈ r.cells → r.kind? = some .maxima) :
    (s.apply r).peakAt c = Option.merge max (s.peakAt c) (peak c r.raises) := by
  by_cases touched : c ∈ r.cells
  · cases r with
    | put => simp [Request.kind?] at raised; exact absurd touched raised
    | increments => simp [Request.kind?] at raised; exact absurd touched raised
    | maximum table m =>
      have here : c = ⟨table, m.row, m.name.family, m.name.qualifier⟩ := by
        simpa [Request.cells, Request.additions, Request.raises] using touched
      rw [peakAt, cell?_apply_maximum, if_pos here, Option.map_some, counter_raised, peakAt]
      simp only [Request.raises, peak_cons, here, ↓reduceIte, peak_nil, Option.merge_none_right]
      cases found : s.cell? ⟨table, m.row, m.name.family, m.name.qualifier⟩ with
      | some bytes => rfl
      | none => simp [counter]
  · have none : ∀ e ∈ r.raises, e.1 ≠ c := by
      rintro e member rfl
      exact touched (r.mem_cells_of_change .maxima member)
    rw [peakAt, cell?_apply_of_not_mem touched, peak, Tally.total_eq_nothing _ none, peakAt]
    exact Option.merge_none_right.symm

end Store

end CallTelemetry
