import CallTelemetry.Proofs.Failing
import CallTelemetry.Proofs.Pending.Merging

/-! Merging groups. The drained additions are sorted, so those of one row and family lie together
and come to lie in one increment, and those of one table in one list of increments. What comes out
is in the order of the sort and does not depend on the order in which the additions were drained. -/
namespace CallTelemetry

/-- The additions that an increment stands for, at the key of its row without salt. -/
def Increment.original (table : TableName) (i : Increment) :
    Except SaltError (List (Pending.Cell × Int64)) := do
  let row ← Salting.unsalted i.row
  return Increment.additions table { i with row }

/-- Whether a row comes before another by its key without salt, and then by its family. -/
def Increment.Before (i i' : Increment) : Prop :=
  ∃ key key', Salting.unsalted i.row = .ok key ∧ Salting.unsalted i'.row = .ok key' ∧
    (compare key key' = .lt ∨ key = key' ∧ compare i.family i'.family = .lt)

namespace Pending

/-- The order of the columns of a row: by name, and then by amount. -/
def compareColumns : Bytes × Int64 → Bytes × Int64 → Ordering :=
  compareLex (compareOn (·.1)) (compareOn (·.2))

/-- Increments as a merge leaves them. -/
structure Grouped (rows : List Increment) : Prop where
  once : (rows.map fun i => (i.row, i.family)).Nodup
  ordered : rows.Pairwise Increment.Before
  columns : ∀ i ∈ rows, i.columns.Pairwise fun a b => compareColumns a b ≠ .gt

/-! Runs of like keys. -/

def intoRuns [DecidableEq α] (key : α) (later : List α) : List α :=
  if later.head? = some key then later else key :: later

/-- The keys of a list, those that lie together taken as one. -/
def runs [DecidableEq α] (keys : List α) : List α := keys.foldr intoRuns []

theorem mem_of_mem_runs [DecidableEq α] {keys : List α} {k : α} (member : k ∈ runs keys) :
    k ∈ keys := by
  induction keys with
  | nil => exact member
  | cons k' keys ih =>
    rw [runs, List.foldr_cons, intoRuns] at member
    split at member
    · exact List.mem_cons_of_mem _ (ih member)
    · rcases List.mem_cons.1 member with rfl | member
      · exact List.mem_cons_self
      · exact List.mem_cons_of_mem _ (ih member)

/-- In a list that ascends, like keys lie together. -/
theorem runs_ascending [DecidableEq α] [Ord α] [Std.TransOrd α] [Std.LawfulEqOrd α] {keys : List α}
    (sorted : keys.Pairwise fun k k' => compare k k' ≠ .gt) :
    (runs keys).Pairwise fun k k' => compare k k' = .lt := by
  induction keys with
  | nil => exact .nil
  | cons k keys ih =>
    obtain ⟨least, sorted⟩ := List.pairwise_cons.1 sorted
    have later := ih sorted
    change (intoRuns k (runs keys)).Pairwise _
    unfold intoRuns
    split
    next => exact later
    next new =>
      refine List.pairwise_cons.2 ⟨?_, later⟩
      cases known : runs keys with
      | nil => simp
      | cons first others =>
        rw [known] at later new
        have before : compare k first = .lt := by
          have le := least first (mem_of_mem_runs (known ▸ List.mem_cons_self))
          have ne : compare k first ≠ .eq := fun same =>
            new (congrArg some (Std.LawfulEqOrd.eq_of_compare same).symm)
          cases order : compare k first <;> simp_all
        intro k' member
        rcases List.mem_cons.1 member with rfl | member
        · exact before
        · exact Std.TransCmp.lt_trans before ((List.pairwise_cons.1 later).1 k' member)

/-! The order of the sort. -/

instance : Std.TransCmp compareAdditions :=
  inferInstanceAs (Std.TransCmp (compareLex (compareOn (Prod.fst : Cell × Int64 → Cell))
    (compareOn Prod.snd)))

instance : Std.LawfulEqCmp compareAdditions where
  eq_of_compare {a b} same := by
    simp only [compareAdditions, compareLex_eq_eq, compareOn,
      Std.LawfulEqOrd.compare_eq_iff_eq] at same
    exact Prod.ext same.1 same.2

theorem sorted_ascending (additions : List (Cell × Int64)) :
    (sorted additions).Pairwise fun a b => (compareAdditions a b).isLE := by
  refine List.pairwise_mergeSort (fun a b c => Std.TransCmp.isLE_trans) (fun a b => ?_) additions
  have swap : compareAdditions b a = (compareAdditions a b).swap := Std.OrientedCmp.eq_swap
  rw [swap]
  cases compareAdditions a b <;> rfl

/-- Additions are sorted alike in whichever order they were drained. -/
theorem sorted_eq_of_perm {additions additions' : List (Cell × Int64)}
    (same : additions'.Perm additions) : sorted additions' = sorted additions := by
  have perm := (sorted_perm additions').trans (same.trans (sorted_perm additions).symm)
  refine perm.eq_of_pairwise (fun a b _ _ before after => ?_) (sorted_ascending _)
    (sorted_ascending _)
  exact Std.LawfulEqCmp.eq_of_compare (Std.OrientedCmp.isLE_antisymm before after)

/-! Rows and tables are runs of what was sorted. -/

/-- Where an addition goes: its cell without the column. -/
def Cell.place (c : Cell) : Cell := { c with column := [] }

def rowPlace (r : TableName × Increment) : Cell := ⟨r.1, r.2.row, r.2.family, []⟩

theorem gather_places (a : Cell × Int64) (rows : List (TableName × Increment)) :
    (gather a rows).map rowPlace = intoRuns a.1.place (rows.map rowPlace) := by
  cases rows with
  | nil => rfl
  | cons first rest =>
    obtain ⟨table, row⟩ := first
    have together : rowPlace (table, row) = a.1.place ↔
        table = a.1.table ∧ row.row = a.1.row ∧ row.family = a.1.family := by
      simp [rowPlace, Cell.place]
    unfold gather intoRuns
    simp only [List.map_cons, List.head?_cons, Option.some.injEq, together]
    split <;> rfl

theorem gathered_places (l : List (Cell × Int64)) :
    (l.foldr gather []).map rowPlace = runs (l.map (·.1.place)) := by
  rw [runs, List.foldr_map]
  exact (List.foldr_hom (List.map rowPlace) fun a rows => (gather_places a rows).symm).symm

theorem byTable_names (r : TableName × Increment) (tables : List (TableName × List Increment)) :
    (byTable r tables).map (·.1) = intoRuns r.1 (tables.map (·.1)) := by
  cases tables with
  | nil => rfl
  | cons first rest =>
    unfold byTable intoRuns
    simp only [List.map_cons, List.head?_cons, Option.some.injEq]
    split <;> rfl

theorem tables_names (rows : List (TableName × Increment)) :
    (rows.foldr byTable []).map (·.1) = runs (rows.map (·.1)) := by
  rw [runs, List.foldr_map]
  exact (List.foldr_hom (List.map (·.1)) fun r tables => (byTable_names r tables).symm).symm

/-- A comparison of cells goes by the table, the place in it, and the column. -/
theorem compare_cells (c c' : Cell) :
    compare c c' = (compare c.place c'.place).then (compare c.column c'.column) := by
  change Cell.compareCells _ _ = (Cell.compareCells _ _).then _
  simp [Cell.compareCells, compareLex, compareOn, Cell.place, Ordering.then_assoc]

theorem place_ascending {a b : Cell × Int64} (before : (compareAdditions a b).isLE) :
    compare a.1.place b.1.place ≠ .gt := by
  intro after
  rw [compareAdditions, compareLex, compareOn, compare_cells, after] at before
  cases before

/-- The rows of a merge ascend, by their tables and then by their keys without salt. -/
theorem gathered_ascending (additions : List (Cell × Int64)) :
    ((sorted additions).foldr gather []).Pairwise fun r r' =>
      compare (rowPlace r) (rowPlace r') = .lt := by
  have places := runs_ascending
    (List.pairwise_map.2 ((sorted_ascending additions).imp place_ascending))
  rw [← gathered_places] at places
  exact List.pairwise_map.1 places

theorem compare_rowPlace (r r' : TableName × Increment) :
    compare (rowPlace r) (rowPlace r') = (compare r.1 r'.1).then
      ((compare r.2.row r'.2.row).then (compare r.2.family r'.2.family)) := by
  change Cell.compareCells _ _ = _
  simp [Cell.compareCells, compareLex, compareOn, rowPlace]

/-- The tables of a merge ascend. -/
theorem merge_names (s : Salting) (additions : List (Cell × Int64)) :
    ((merge s additions).map (·.1)).Pairwise fun t t' => compare t t' = .lt := by
  refine (congrArg (List.Pairwise _) (tables_names _)).mpr (runs_ascending ?_)
  rw [List.map_map]
  refine List.pairwise_map.2 ((gathered_ascending additions).imp fun {r r'} before after => ?_)
  rw [compare_rowPlace] at before
  change compare r.1 r'.1 = .gt at after
  rw [after] at before
  cases before

theorem merge_names_nodup (s : Salting) (additions : List (Cell × Int64)) :
    ((merge s additions).map (·.1)).Nodup := by
  refine (merge_names s additions).imp fun {t t'} before same => ?_
  rw [same, Std.ReflOrd.compare_self] at before
  cases before

/-- The rows of one table of a merge, as they were before they got their salts. -/
theorem table_sublist {s : Salting} {additions : List (Cell × Int64)}
    {t : TableName × List Increment} (member : t ∈ merge s additions) :
    (t.2.map (t.1, ·)).Sublist (((sorted additions).foldr gather []).map (saltedRow s)) := by
  rw [← tableRows_merge, tableRows, List.flatMap_def]
  exact List.sublist_flatten_of_mem (List.mem_map_of_mem member)

theorem table_ordered {s : Salting} {additions : List (Cell × Int64)}
    {t : TableName × List Increment} (member : t ∈ merge s additions) :
    t.2.Pairwise Increment.Before := by
  have before {r r' : TableName × Increment} (ascending : compare (rowPlace r) (rowPlace r') = .lt)
      (same : r.1 = r'.1) : Increment.Before (saltedRow s r).2 (saltedRow s r').2 := by
    rw [compare_rowPlace, same, Std.ReflOrd.compare_self, Ordering.eq_then,
      Ordering.then_eq_lt, Std.LawfulEqOrd.compare_eq_iff_eq] at ascending
    exact ⟨r.2.row, r'.2.row, rfl, rfl, ascending⟩
  have rows : (((sorted additions).foldr gather []).map (saltedRow s)).Pairwise fun r r' =>
      r.1 = r'.1 → r.2.Before r'.2 :=
    List.pairwise_map.2 ((gathered_ascending additions).imp before)
  exact (List.pairwise_map.1 (rows.sublist (table_sublist member))).imp fun ordered => ordered rfl

theorem table_once {rows : List Increment} (ordered : rows.Pairwise Increment.Before) :
    (rows.map fun i => (i.row, i.family)).Nodup := by
  refine List.pairwise_map.2 (ordered.imp ?_)
  rintro i i' ⟨key, key', here, there, order⟩ same
  obtain ⟨row, family⟩ := Prod.mk.inj same
  rw [row, there] at here
  obtain rfl := Except.ok.inj here
  rcases order with order | ⟨-, order⟩ <;> simp [family] at order

/-- The additions of a row lay in this order among the others. -/
theorem row_sublist {l : List (Cell × Int64)} {r : TableName × Increment}
    (member : r ∈ l.foldr gather []) : (r.2.additions r.1).Sublist l := by
  have part := List.sublist_flatten_of_mem
    (List.mem_map_of_mem (f := fun r : TableName × Increment => r.2.additions r.1) member)
  rwa [← List.flatMap_def, gathered_additions] at part

theorem row_columns {additions : List (Cell × Int64)} {r : TableName × Increment}
    (member : r ∈ (sorted additions).foldr gather []) :
    r.2.columns.Pairwise fun a b => compareColumns a b ≠ .gt := by
  have ascending := List.pairwise_map.1 ((sorted_ascending additions).sublist (row_sublist member))
  refine ascending.imp fun {a b} before after => ?_
  rw [compareAdditions, compareLex, compareOn, compare_cells, Cell.place, Cell.place,
    Std.ReflOrd.compare_self] at before
  change ((compare a.1 b.1).then (compare a.2 b.2)).isLE at before
  change (compare a.1 b.1).then (compare a.2 b.2) = .gt at after
  rw [after] at before
  cases before

theorem grouped_of_mem_merge {s : Salting} {additions : List (Cell × Int64)}
    {t : TableName × List Increment} (member : t ∈ merge s additions) : Grouped t.2 where
  once := table_once (table_ordered member)
  ordered := table_ordered member
  columns i row := by
    obtain ⟨r, inside, same⟩ := mem_merge member row
    rw [← (Prod.mk.inj same).2]
    exact row_columns inside

/-- Without their salts, the rows of a merge are the sorted additions. -/
theorem merge_original (s : Salting) (additions : List (Cell × Int64)) :
    ∃ read, (tableRows (merge s additions)).mapM (fun r => r.2.original r.1) = .ok read ∧
      read.flatten = sorted additions := by
  refine ⟨((sorted additions).foldr gather []).map fun r => r.2.additions r.1, ?_, ?_⟩
  · rw [tableRows_merge, List.mapM_map]
    exact mapM_ok fun r _ => rfl
  · rw [← List.flatMap_def, gathered_additions]

/-- Each addition has one row to go to. -/
theorem merge_place (s : Salting) {additions : List (Cell × Int64)} {a : Cell × Int64}
    (member : a ∈ additions) :
    ∃ t ∈ merge s additions, t.1 = a.1.table ∧
      t.2.countP (fun i => i.row = s.salted a.1.row ∧ i.family = a.1.family) = 1 := by
  have inside := (sorted_perm additions).mem_iff.2 member
  rw [← gathered_additions (sorted additions)] at inside
  obtain ⟨r, gathered, inside⟩ := List.mem_flatMap.1 inside
  obtain ⟨column, -, rfl⟩ := List.mem_map.1 inside
  have merged : saltedRow s r ∈ tableRows (merge s additions) :=
    tableRows_merge s additions ▸ List.mem_map_of_mem gathered
  obtain ⟨t, table, merged⟩ := List.mem_flatMap.1 merged
  obtain ⟨i, row, same⟩ := List.mem_map.1 merged
  obtain ⟨name, rfl⟩ := Prod.mk.inj same
  have once := (grouped_of_mem_merge table).once.count (a := (s.salted r.2.row, r.2.family))
  rw [if_pos (List.mem_map_of_mem row), List.count_eq_countP, List.countP_map] at once
  refine ⟨t, table, name, Eq.trans (List.countP_congr fun i _ => ?_) once⟩
  simp

/-- A merge is a grouping of the additions: in each table they have one increment for each row and
family, in the order of the keys without salt, and each with its columns in order. Without their
salts the increments are the additions again, as often as they were drained, and in whichever order
these were drained. -/
theorem merge_groups (s : Salting) (additions : List (Cell × Int64)) :
    ((merge s additions).map (·.1)).Nodup ∧
    (∀ t ∈ merge s additions, Grouped t.2) ∧
    (∀ a ∈ additions, ∃ t ∈ merge s additions, t.1 = a.1.table ∧
      t.2.countP (fun i => i.row = s.salted a.1.row ∧ i.family = a.1.family) = 1) ∧
    (∃ read, (tableRows (merge s additions)).mapM (fun r => r.2.original r.1) = .ok read ∧
      read.flatten.Perm additions) ∧
    ∀ additions', additions'.Perm additions → merge s additions' = merge s additions := by
  refine ⟨merge_names_nodup s additions, fun t member => grouped_of_mem_merge member,
    fun a => merge_place s, ?_, ?_⟩
  · obtain ⟨read, answered, flat⟩ := merge_original s additions
    exact ⟨read, answered, flat ▸ sorted_perm additions⟩
  · intro additions' same
    unfold merge
    rw [← sorted, sorted_eq_of_perm same, sorted]

/-- Changes of two tables, in the order of a merge. -/
def twoTables : List (Cell × Int64) :=
  let cell (table : String) (row column : Bytes) : Cell :=
    ⟨.qualified "test" table, row, [67], column⟩
  [(cell "Callee" [1] [97], 4), (cell "Caller" [1] [97], 1), (cell "Caller" [1] [97], 1),
    (cell "Caller" [1] [98], 3), (cell "Caller" [2] [97], 2)]

theorem merge_groups_twoTables :
    (merge ⟨12, by decide, by decide⟩ twoTables.reverse).map (fun t => t.2.map (·.columns)) =
      [[[([97], 4)]], [[([97], 1), ([97], 1), ([98], 3)], [([97], 2)]]] := by
  have inOrder : twoTables.Pairwise fun a b => (compareAdditions a b).isLE := by decide
  rw [(merge_groups _ twoTables).2.2.2.2 _ twoTables.reverse_perm, merge,
    List.mergeSort_of_pairwise inOrder]
  decide

end Pending

end CallTelemetry
