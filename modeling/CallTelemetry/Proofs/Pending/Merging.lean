import CallTelemetry.Pending.Writer
import CallTelemetry.Proofs.Batch
import CallTelemetry.Proofs.Pending.Cells

/-! Merging loses nothing and adds nothing: read as a list of changes of cells, the requests of a flush
are the drained additions in order, each at its salted row. -/
namespace CallTelemetry.Pending

/-- The additions of rows, table by table. -/
def tableAdditions (tables : List (TableName × List Increment)) : List (Cell × Int64) :=
  tables.flatMap fun t => t.2.flatMap (Increment.additions t.1)

theorem gather_additions (a : Cell × Int64) (rows : List (TableName × Increment)) :
    (gather a rows).flatMap (fun r => r.2.additions r.1) =
      a :: rows.flatMap fun r => r.2.additions r.1 := by
  obtain ⟨⟨table, row, family, column⟩, delta⟩ := a
  cases rows with
  | nil => rfl
  | cons first rest =>
    obtain ⟨t, i⟩ := first
    unfold gather
    dsimp only
    split
    next same =>
      obtain ⟨rfl, rfl, rfl⟩ := same
      rfl
    next => rfl

/-- The rows of tables, table by table. -/
def tableRows (tables : List (TableName × List Increment)) : List (TableName × Increment) :=
  tables.flatMap fun t => t.2.map (t.1, ·)

theorem tableRows_byTable (r : TableName × Increment)
    (tables : List (TableName × List Increment)) :
    tableRows (byTable r tables) = r :: tableRows tables := by
  cases tables with
  | nil => rfl
  | cons first rest =>
    obtain ⟨t, rows⟩ := first
    unfold byTable
    dsimp only
    split
    next same =>
      subst same
      rfl
    next => rfl

/-- Put into tables, rows stay in their order. -/
theorem tableRows_tables (rows : List (TableName × Increment)) :
    tableRows (rows.foldr byTable []) = rows := by
  induction rows with
  | nil => rfl
  | cons r rows ih => rw [List.foldr_cons, tableRows_byTable, ih]

theorem mem_tableRows {tables : List (TableName × List Increment)} {t : TableName × List Increment}
    (member : t ∈ tables) {i : Increment} (row : i ∈ t.2) : (t.1, i) ∈ tableRows tables :=
  List.mem_flatMap.2 ⟨t, member, List.mem_map_of_mem row⟩

theorem tableAdditions_eq (tables : List (TableName × List Increment)) :
    tableAdditions tables = (tableRows tables).flatMap fun r => r.2.additions r.1 := by
  simp only [tableAdditions, tableRows, List.flatMap_assoc, List.flatMap_map]

/-- The drained additions in the order in which they are merged. -/
def sorted (additions : List (Cell × Int64)) : List (Cell × Int64) :=
  additions.mergeSort fun a b => (compareAdditions a b).isLE

theorem sorted_perm (additions : List (Cell × Int64)) : (sorted additions).Perm additions :=
  List.mergeSort_perm additions _

/-- Gathered into rows, additions stay in their order. -/
theorem gathered_additions (l : List (Cell × Int64)) :
    (l.foldr gather []).flatMap (fun r => r.2.additions r.1) = l := by
  induction l with
  | nil => rfl
  | cons a l ih => rw [List.foldr_cons, gather_additions, ih]

/-- A row as a merge leaves it: with its salt. -/
def saltedRow (s : Salting) (r : TableName × Increment) : TableName × Increment :=
  (r.1, { r.2 with row := s.salted r.2.row })

/-- Merged, the rows are the gathered ones with their salts. -/
theorem tableRows_merge (s : Salting) (additions : List (Cell × Int64)) :
    tableRows (merge s additions) = ((sorted additions).foldr gather []).map (saltedRow s) :=
  tableRows_tables _

theorem merge_additions (s : Salting) (additions : List (Cell × Int64)) :
    tableAdditions (merge s additions) = (sorted additions).map (saltedEntry s) := by
  have salted (r : TableName × Increment) :
      (saltedRow s r).2.additions (saltedRow s r).1 = (r.2.additions r.1).map (saltedEntry s) := by
    simp [Increment.additions, saltedRow, saltedEntry, Cell.salted]
  rw [tableAdditions_eq, tableRows_merge, List.flatMap_map]
  simp only [salted]
  rw [← List.map_flatMap, gathered_additions]

theorem mem_gather {a : Cell × Int64} {rows : List (TableName × Increment)}
    {r : TableName × Increment} (member : r ∈ gather a rows) :
    (r.1 = a.1.table ∧ r.2.row = a.1.row ∧ r.2.family = a.1.family) ∨ r ∈ rows := by
  cases rows with
  | nil =>
    obtain rfl := List.mem_singleton.1 member
    exact .inl ⟨rfl, rfl, rfl⟩
  | cons first rest =>
    unfold gather at member
    dsimp only at member
    split at member
    next same =>
      rcases List.mem_cons.1 member with rfl | member
      · exact .inl same
      · exact .inr (List.mem_cons_of_mem _ member)
    next =>
      rcases List.mem_cons.1 member with rfl | member
      · exact .inl ⟨rfl, rfl, rfl⟩
      · exact .inr member

/-- A gathered row comes from an addition to it. -/
theorem gathered_origin {l : List (Cell × Int64)} {r : TableName × Increment}
    (member : r ∈ l.foldr gather []) :
    ∃ a ∈ l, r.1 = a.1.table ∧ r.2.row = a.1.row ∧ r.2.family = a.1.family := by
  induction l with
  | nil => simp at member
  | cons a l ih =>
    rcases mem_gather member with same | member
    · exact ⟨a, List.mem_cons_self, same⟩
    · obtain ⟨a', inside, same⟩ := ih member
      exact ⟨a', List.mem_cons_of_mem _ inside, same⟩

/-- A row of a merge is a gathered one with its salt. -/
theorem mem_merge {s : Salting} {additions : List (Cell × Int64)}
    {t : TableName × List Increment} (member : t ∈ merge s additions) {i : Increment}
    (row : i ∈ t.2) : ∃ r ∈ (sorted additions).foldr gather [], saltedRow s r = (t.1, i) :=
  List.mem_map.1 (tableRows_merge s additions ▸ mem_tableRows member row)

/-- A merged row comes from an addition to it. -/
theorem merge_origin {s : Salting} {additions : List (Cell × Int64)}
    {t : TableName × List Increment} (member : t ∈ merge s additions) {i : Increment}
    (row : i ∈ t.2) :
    ∃ a ∈ additions, t.1 = a.1.table ∧ i.row = s.salted a.1.row ∧ i.family = a.1.family := by
  obtain ⟨r, inside, same⟩ := mem_merge member row
  obtain ⟨a, origin, table, key, family⟩ := gathered_origin inside
  have parts := Prod.mk.inj same
  refine ⟨a, (sorted_perm additions).mem_iff.1 origin, parts.1 ▸ table, ?_, ?_⟩
  · rw [← parts.2, key]
  · rw [← parts.2, family]

/-- A merged row has columns. -/
theorem merge_filled {s : Salting} {additions : List (Cell × Int64)}
    {t : TableName × List Increment} (member : t ∈ merge s additions) {i : Increment}
    (row : i ∈ t.2) : i.columns ≠ [] := by
  have gathered (l : List (Cell × Int64)) : ∀ r ∈ l.foldr gather [], r.2.columns ≠ [] := by
    induction l with
    | nil => simp
    | cons a l ih =>
      intro r member
      rw [List.foldr_cons] at member
      revert member ih
      generalize l.foldr gather [] = rows
      intro ih member
      cases rows with
      | nil =>
        obtain rfl := List.mem_singleton.1 member
        exact List.cons_ne_nil _ _
      | cons first rest =>
        unfold gather at member
        dsimp only at member
        split at member
        all_goals
          rcases List.mem_cons.1 member with rfl | member
          · exact List.cons_ne_nil _ _
        · exact ih r (List.mem_cons_of_mem _ member)
        · exact ih r member
  obtain ⟨r, inside, same⟩ := mem_merge member row
  rw [← (Prod.mk.inj same).2]
  exact gathered _ r inside

/-- The requests of drained additions hold merged rows. -/
theorem mem_incrementRequests {w : BatchedWriter} {drained : List (Cell × Int64)} {r : Request}
    (member : r ∈ w.incrementRequests drained) :
    ∃ t ∈ merge w.salting drained, ∃ rows, r = .increments t.1 rows ∧ ∀ i ∈ rows, i ∈ t.2 := by
  obtain ⟨t, inside, member⟩ := List.mem_flatMap.1 member
  obtain ⟨rows, chunk, rfl⟩ := List.mem_map.1 member
  refine ⟨t, inside, rows, rfl, fun i row => ?_⟩
  rw [← chunks_flatten w.batchSize t.2]
  exact List.mem_flatten.2 ⟨rows, chunk, row⟩

theorem incrementRequests_origin {w : BatchedWriter} {drained : List (Cell × Int64)} {r : Request}
    (member : r ∈ w.incrementRequests drained) :
    ∃ table rows, r = .increments table rows ∧ ∀ i ∈ rows, ∃ a ∈ drained,
      table = a.1.table ∧ i.row = w.salting.salted a.1.row ∧ i.family = a.1.family := by
  obtain ⟨t, inside, rows, same, merged⟩ := mem_incrementRequests member
  exact ⟨t.1, rows, same, fun i row => merge_origin inside (merged i row)⟩

theorem incrementRequests_additions (w : BatchedWriter) (drained : List (Cell × Int64)) :
    (w.incrementRequests drained).flatMap Request.additions =
      (sorted drained).map (saltedEntry w.salting) := by
  have batched (table : TableName) (rows : List Increment) :
      ((chunks w.batchSize rows).map (.increments table)).flatMap Request.additions =
        rows.flatMap (Increment.additions table) := by
    rw [List.flatMap_map]
    exact List.flatMap_assoc.symm.trans (by rw [List.flatMap_id', chunks_flatten])
  rw [← merge_additions, BatchedWriter.incrementRequests, List.flatMap_assoc]
  congr 1
  funext t
  exact batched t.1 t.2

end CallTelemetry.Pending
