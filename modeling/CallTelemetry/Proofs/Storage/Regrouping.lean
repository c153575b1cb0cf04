import Mathlib.Data.List.Dedup
import CallTelemetry.Proofs.Pending.Reordering

/-! Requests that a store serves one after another. Those that fail leave no trace in a table. Of
increments only the sums count, not how they come in batches or in which order, and of values that
cells are raised to only which they are. -/
namespace CallTelemetry

open Pending

/-- Steps that may change places, and of which doing one again does nothing, come to the same whenever
they are the same steps. -/
theorem foldl_eq_of_same_members [DecidableEq α] {f : β → α → β}
    (comm : ∀ b a a', f (f b a) a' = f (f b a') a) (idem : ∀ b a, f (f b a) a = f b a)
    {l l' : List α} (same : ∀ a, a ∈ l ↔ a ∈ l') (b : β) : l.foldl f b = l'.foldl f b := by
  have reorder {l l' : List α} (perm : l.Perm l') (b : β) : l.foldl f b = l'.foldl f b :=
    perm.foldl_eq' (fun a _ a' _ b => comm b a a') b
  have once (l : List α) (b : β) : l.foldl f b = l.dedup.foldl f b := by
    induction l generalizing b with
    | nil => rfl
    | cons a l ih =>
      by_cases again : a ∈ l
      -- The step that comes again may be taken at once, where it does nothing.
      · have front := List.perm_cons_erase again
        rw [List.dedup_cons_of_mem again, ← ih, List.foldl_cons, reorder front, reorder front b,
          List.foldl_cons, List.foldl_cons, idem]
      · rw [List.dedup_cons_of_notMem again, List.foldl_cons, List.foldl_cons, ih]
  have perm : l.dedup.Perm l'.dedup :=
    (List.perm_ext_iff_of_nodup l.nodup_dedup l'.nodup_dedup).2 (by simpa using same)
  rw [once l, once l', reorder perm]

namespace Store

/-- Serves requests one after another, and answers what each comes to. -/
def serve (s : Store) : List Request → List (Except StoreError Unit) × Store
  | [] => ([], s)
  | r :: rest =>
    let (outcome, s) := s.arrive.carryOut r
    let (outcomes, s) := s.serve rest
    (outcome :: outcomes, s)

/-- A request that arrives fails if a failure is due, and is carried out otherwise. -/
theorem carryOut_arrive_cases (s : Store) (r : Request) :
    (s.dueFailures = 0 ∧ s.arrive.carryOut r = (.ok (), s.arrive.apply r)) ∨
      ∃ due, s.dueFailures = due + 1 ∧
        s.arrive.carryOut r = (.error failure, { s.arrive with dueFailures := due }) := by
  cases due : s.dueFailures with
  | zero => exact .inl ⟨rfl, by simp only [carryOut, arrive, due]⟩
  | succ n => exact .inr ⟨n, rfl, by simp only [carryOut, arrive, due]⟩

theorem tables_of_refused {s : Store} {r : Request} {e : StoreError}
    (refused : (s.arrive.carryOut r).1 = .error e) :
    (s.arrive.carryOut r).2.tables = s.tables := by
  rcases s.carryOut_arrive_cases r with ⟨-, carried⟩ | ⟨due, -, failed⟩
  · rw [carried] at refused
    cases refused
  · rw [failed]
    rfl

/-- What a request makes of the tables depends on them alone. -/
theorem tables_apply {s s' : Store} (same : s.tables = s'.tables) (r : Request) :
    (s.apply r).tables = (s'.apply r).tables := by
  have row {s s' : Store} (same : s.tables = s'.tables) (table : TableName) (row : Bytes)
      (f : Cells → Cells) : (s.updateRow table row f).tables = (s'.updateRow table row f).tables := by
    simp only [updateRow, same]
  cases r with
  | put => exact row same _ _ _
  | maximum => exact row same _ _ _
  | increments table is =>
    have fold : (is.foldl (increment table) s).tables = (is.foldl (increment table) s').tables := by
      induction is generalizing s s' with
      | nil => exact same
      | cons i is ih => exact ih (row same _ _ _)
    exact fold

theorem tables_foldl_apply {s s' : Store} (same : s.tables = s'.tables) (rs : List Request) :
    (rs.foldl apply s).tables = (rs.foldl apply s').tables := by
  induction rs generalizing s s' with
  | nil => exact same
  | cons r rs ih => exact ih (tables_apply same r)

theorem dueFailures_apply (s : Store) (r : Request) : (s.apply r).dueFailures = s.dueFailures := by
  cases r with
  | put => rfl
  | maximum => rfl
  | increments table is =>
    exact List.foldlRecOn (motive := fun t : Store => t.dueFailures = s.dueFailures) is
      (increment table) rfl fun _ same _ _ => same

/-- The first requests fail, as many as are due to; the others are carried out. -/
theorem outcomes_serve (s : Store) (rs : List Request) : (s.serve rs).1 =
    (rs.take s.dueFailures).map (fun _ => .error failure) ++
      (rs.drop s.dueFailures).map (fun _ => .ok ()) := by
  induction rs generalizing s with
  | nil => simp [serve]
  | cons r rs ih =>
    rcases s.carryOut_arrive_cases r with ⟨none, carried⟩ | ⟨due, some, failed⟩
    · have none' : (s.arrive.apply r).dueFailures = 0 := (dueFailures_apply s.arrive r).trans none
      simp [serve, carried, ih, none, none']
    · simp [serve, failed, ih, some]

/-- The tables are as if only those requests had come that did not fail. -/
theorem tables_serve (s : Store) (rs : List Request) :
    (s.serve rs).2.tables = ((rs.drop s.dueFailures).foldl apply s).tables := by
  induction rs generalizing s with
  | nil => simp [serve]
  | cons r rs ih =>
    rcases s.carryOut_arrive_cases r with ⟨none, carried⟩ | ⟨due, some, failed⟩
    · have none' : (s.arrive.apply r).dueFailures = 0 := (dueFailures_apply s.arrive r).trans none
      simp only [serve, carried, ih, none, none', List.drop_zero, List.foldl_cons]
      exact tables_foldl_apply (tables_apply (show s.arrive.tables = s.tables from rfl) r) rs
    · simp only [serve, failed, ih, some, List.drop_succ_cons]
      refine tables_foldl_apply ?_ _
      rfl

/-- Additions to columns of a row may change places. -/
theorem increment_comm (table : TableName) (s : Store) (i j : Increment) :
    increment table (increment table s i) j = increment table (increment table s j) i := by
  have columns (cells : Cells) :
      j.columns.foldl (addTo j.family) (i.columns.foldl (addTo i.family) cells) =
        i.columns.foldl (addTo i.family) (j.columns.foldl (addTo j.family) cells) := by
    -- Rows may be missing before, so it is cells that are compared.
    refine SortedMap.ext_get? fun name => ?_
    simp only [get?_foldl_addTo _ _ _ _ table [], ← List.foldl_append]
    exact List.perm_append_comm.foldl_eq' (fun a _ b _ cell => added_comm cell a b) _
  simp only [increment, updateRow, Store.mk.injEq, and_true]
  refine SortedMap.update_comm s.tables (fun _ => rfl) fun _ rows => ?_
  exact SortedMap.update_comm rows (fun _ => rfl) fun _ cells => columns cells

theorem tables_increments (table : TableName) (batches : List (List Increment)) (s : Store) :
    ((batches.map (.increments table)).foldl apply s).tables =
      (batches.flatten.foldl (increment table) s).tables := by
  induction batches generalizing s with
  | nil => rfl
  | cons is batches ih =>
    rw [List.map_cons, List.foldl_cons, ih, List.flatten_cons, List.foldl_append]
    have first : (s.apply (.increments table is)).tables = (is.foldl (increment table) s).tables :=
      rfl
    exact tables_apply first (.increments table batches.flatten)

/-- Raising cells twice to the same values changes nothing, as little as their order does. -/
theorem raised_idem (cell : Option Bytes) (value : Int64) :
    raised (some (raised cell value)) value = raised cell value := by
  unfold raised
  dsimp only
  split
  next => simp [counter]
  next notLess => simp [notLess]

theorem apply_maximum (s : Store) (table : TableName) (m : Maximum) : s.apply (.maximum table m) =
    s.alterCell ⟨table, m.row, m.name.family, m.name.qualifier⟩
      fun cell => some (raised cell m.value) :=
  rfl

theorem alterCell_alterCell (s : Store) (c : Cell) (f g : Option Bytes → Option Bytes) :
    (s.alterCell c f).alterCell c g = s.alterCell c fun cell => g (f cell) := by
  simp only [alterCell, updateRow, SortedMap.update_update, SortedMap.alter_alter]

theorem raise_comm (s : Store) (m m' : TableName × Maximum) :
    (s.apply (.maximum m.1 m.2)).apply (.maximum m'.1 m'.2) =
      (s.apply (.maximum m'.1 m'.2)).apply (.maximum m.1 m.2) := by
  simp only [apply_maximum]
  exact alterCell_comm s fun _ cell => congrArg some (raised_comm cell _ _)

theorem raise_idem (s : Store) (m : TableName × Maximum) :
    (s.apply (.maximum m.1 m.2)).apply (.maximum m.1 m.2) = s.apply (.maximum m.1 m.2) := by
  simp only [apply_maximum, alterCell_alterCell, raised_idem]

theorem peakAt_maxima (s : Store) (ms : List (TableName × Maximum)) (c : Cell) :
    ((ms.map fun m => .maximum m.1 m.2).foldl apply s).peakAt c = Option.merge max (s.peakAt c)
      (peak c (ms.flatMap fun m => (Request.maximum m.1 m.2).raises)) := by
  induction ms generalizing s with
  | nil => exact Option.merge_none_right.symm
  | cons m ms ih =>
    rw [List.map_cons, List.foldl_cons, ih, peakAt_apply fun _ => rfl, List.flatMap_cons, peak_append]
    exact Tally.peaks.assoc _ _ _

/-- What a store makes of requests. Those of increments come to the sums of what is asked of each
cell, and those of maxima to the largest values, whatever their grouping and their order, and whether
maxima are asked for again. What fails changes no cell. -/
structure Regroups (s : Store) : Prop where
  outcomes : ∀ rs, (s.serve rs).1 = (rs.take s.dueFailures).map (fun _ => .error failure) ++
    (rs.drop s.dueFailures).map (fun _ => .ok ())
  answered : ∀ rs table,
    (s.serve rs).2.rows table = ((rs.drop s.dueFailures).foldl apply s).rows table
  refused : ∀ r e, (s.arrive.carryOut r).1 = .error e → ∀ table,
    (s.arrive.carryOut r).2.rows table = s.rows table
  increments : ∀ table (batches batches' : List (List Increment)),
    (batches.drop s.dueFailures).flatten.Perm (batches'.drop s.dueFailures).flatten →
      ∀ table', (s.serve (batches.map (.increments table))).2.rows table' =
        (s.serve (batches'.map (.increments table))).2.rows table'
  sums : ∀ table (batches : List (List Increment)) c,
    let additions := (batches.drop s.dueFailures).flatten.flatMap (Increment.additions table)
    (s.serve (batches.map (.increments table))).2.cell? c =
      if deltas c additions = [] then s.cell? c
      else some (Bytes.ofInt64 (s.counterAt c + amount c additions))
  maxima : ∀ ms ms' : List (TableName × Maximum),
    (∀ m, m ∈ ms.drop s.dueFailures ↔ m ∈ ms'.drop s.dueFailures) →
      ∀ table, (s.serve (ms.map fun m => .maximum m.1 m.2)).2.rows table =
        (s.serve (ms'.map fun m => .maximum m.1 m.2)).2.rows table
  peaks : ∀ (ms : List (TableName × Maximum)) c,
    (s.serve (ms.map fun m => .maximum m.1 m.2)).2.peakAt c = Option.merge max (s.peakAt c)
      (peak c ((ms.drop s.dueFailures).flatMap fun m => (Request.maximum m.1 m.2).raises))

theorem regroups (s : Store) : s.Regroups := by
  have increments (table : TableName) (batches : List (List Increment)) :
      (s.serve (batches.map (.increments table))).2.tables =
        ((batches.drop s.dueFailures).flatten.foldl (increment table) s).tables := by
    rw [tables_serve, ← List.map_drop, tables_increments]
  have maxima (ms : List (TableName × Maximum)) :
      (s.serve (ms.map fun m => .maximum m.1 m.2)).2.tables =
        (((ms.drop s.dueFailures).map fun m => .maximum m.1 m.2).foldl apply s).tables := by
    rw [tables_serve, ← List.map_drop]
  refine ⟨s.outcomes_serve, fun rs table => ?_, fun r e failed table => ?_,
    fun table batches batches' perm table' => ?_, fun table batches c => ?_,
    fun ms ms' same table => ?_, fun ms c => ?_⟩
  · rw [rows, tables_serve, rows]
  · rw [rows, tables_of_refused failed, rows]
  · have reordered := perm.foldl_eq' (fun i _ j _ s => increment_comm table s i j) s
    rw [rows, increments, reordered, ← increments, rows]
  · have read := cell?_apply_increments s table (batches.drop s.dueFailures).flatten c
    have cell : (s.serve (batches.map (.increments table))).2.cell? c =
        (s.apply (.increments table (batches.drop s.dueFailures).flatten)).cell? c := by
      rw [cell?, rows, increments, cell?, rows]
      rfl
    exact cell.trans read
  · have same' : (((ms.drop s.dueFailures).map fun m => .maximum m.1 m.2).foldl apply s) =
        ((ms'.drop s.dueFailures).map fun m => .maximum m.1 m.2).foldl apply s := by
      simp only [List.foldl_map]
      exact foldl_eq_of_same_members raise_comm raise_idem same s
    rw [rows, maxima, same', ← maxima, rows]
  · rw [← peakAt_maxima, peakAt, cell?, rows, maxima, peakAt, cell?, rows]

/-- A row with a cell that is no word, in a store that lets the next request fail. -/
def brokenCell : Store :=
  { empty.updateRow ⟨"t"⟩ [1] (·.insert ⟨[67], [0]⟩ [7, 7, 7]) with dueFailures := 1 }

/-- Two additions to one column, additions without columns, and one that takes the sum round. -/
def overlapping : List Increment :=
  [⟨[1], [67], [([0], 5), ([0], -2)]⟩, ⟨[2], [67], []⟩, ⟨[1], [67], [([0], Int64.maxValue)]⟩]

/-- The first batch is refused, and the rest comes to the same at once and one by one. -/
theorem regroups_overlapping :
    let batched := brokenCell.serve ([[overlapping[0]], overlapping].map (.increments ⟨"t"⟩))
    let single := brokenCell.serve
      (([] :: overlapping.reverse.map ([·])).map (.increments ⟨"t"⟩))
    batched.1 = [.error failure, .ok ()] ∧ (∀ table, batched.2.rows table = single.2.rows table) ∧
      single.2.cell? ⟨⟨"t"⟩, [1], [67], [0]⟩ = some (Bytes.ofInt64 (Int64.minValue + 2)) ∧
      (single.2.rows ⟨"t"⟩).keys = [[1], [2]] := by
  intro batched single
  have same := (regroups brokenCell).increments ⟨"t"⟩ [[overlapping[0]], overlapping]
    ([] :: overlapping.reverse.map ([·])) (by decide)
  have cell := (regroups brokenCell).sums ⟨"t"⟩ ([] :: overlapping.reverse.map ([·]))
    ⟨⟨"t"⟩, [1], [67], [0]⟩
  exact ⟨(regroups brokenCell).outcomes _, same, cell.trans (by decide), by decide +kernel⟩

end Store

end CallTelemetry
