import CallTelemetry.Proofs.Pending.Completion

/-! Rows that have cells. Every request of a flush writes a cell in each row that it names, so that no
row of the store is ever empty. -/
namespace CallTelemetry

open Pending

/-- Whether a request writes a cell in each row that it names. -/
def Request.Filled : Request → Prop
  | .increments _ rows => ∀ i ∈ rows, i.columns ≠ []
  | .put .. | .maximum .. => True

namespace Store

/-- Whether every row has a cell. -/
def Filled (s : Store) : Prop :=
  ∀ table key cells, (s.rows table).get? key = some cells → ∃ name, cells.get? name ≠ none

theorem filled_empty : empty.Filled := by
  intro table key cells found
  simp [rows, empty, SortedMap.getD] at found

theorem filled_updateRow {s : Store} (filled : s.Filled) (table : TableName) (row : Bytes)
    {f : Cells → Cells} (fills : ∀ cells, ∃ name, (f cells).get? name ≠ none) :
    (s.updateRow table row f).Filled := by
  intro table' key cells found
  simp only [rows, updateRow, SortedMap.getD, SortedMap.get?_update] at found
  split at found
  · rw [Option.getD_some, SortedMap.get?_update] at found
    split at found
    · obtain rfl := Option.some.inj found
      exact fills _
    · exact filled table key cells found
  · exact filled table' key cells found

theorem filled_increment {s : Store} (filled : s.Filled) (table : TableName) {i : Increment}
    (columns : i.columns ≠ []) : (increment table s i).Filled := by
  refine filled_updateRow filled table i.row fun cells => ?_
  obtain ⟨column, member⟩ := List.exists_mem_of_ne_nil _ columns
  refine ⟨⟨i.family, column.1⟩, ?_⟩
  have changed : deltas ⟨table, i.row, i.family, column.1⟩
      (Increment.additions table ⟨i.row, i.family, i.columns⟩) ≠ [] :=
    fun none => deltas_eq_nil_iff.1 none _ (List.mem_map_of_mem member) rfl
  rw [get?_foldl_addTo i.family i.columns cells _ table i.row, foldl_added, if_neg changed]
  exact Option.some_ne_none _

theorem filled_apply {s : Store} (filled : s.Filled) {r : Request} (fills : r.Filled) :
    (s.apply r).Filled := by
  cases r with
  | put table row name value =>
    refine filled_updateRow filled table row fun cells => ⟨name, ?_⟩
    simp [SortedMap.get?_insert]
  | increments table rows =>
    have fold (s : Store) (filled : s.Filled) : (rows.foldl (increment table) s).Filled := by
      induction rows generalizing s with
      | nil => exact filled
      | cons i rows ih =>
        exact ih (fun i' row => fills i' (List.mem_cons_of_mem _ row)) _
          (filled_increment filled table (fills i List.mem_cons_self))
    exact fold s filled
  | maximum table m =>
    refine filled_updateRow filled table m.row fun cells => ⟨m.name, ?_⟩
    simp [SortedMap.get?_alter]

theorem filled_carryOut {s : Store} (filled : s.Filled) {r : Request} (fills : r.Filled) :
    (s.carryOut r).2.Filled := by
  unfold carryOut
  split
  · exact filled_apply filled fills
  · exact filled

end Store

namespace Pending

theorem BatchedWriter.filled_beginFlush {w : BatchedWriter} {kind : Flushing} {r : Request}
    (member : r ∈ (w.beginFlush kind).1) : r.Filled := by
  cases kind with
  | counters =>
    obtain ⟨t, inside, rows, rfl, merged⟩ := mem_incrementRequests member
    exact fun i row => merge_filled inside (merged i row)
  | maxima =>
    obtain ⟨e, -, rfl⟩ := List.mem_map.1 member
    trivial

namespace Writing

variable {ι : Type} [DecidableEq ι]

/-- Whether no row is empty, and none becomes empty by what is under way. -/
structure Filled (s : Writing ι) : Prop where
  store : s.store.Filled
  underWay : ∀ i r, (i, r) ∈ s.underWay → r.Filled

theorem filled_step {s : Writing ι} (filled : s.Filled) {a : Action ι} (quiet : a.Quiet) :
    (s.step a).Filled where
  store := by
    cases a with
    | flush i kind =>
      unfold step flush
      dsimp only
      split <;> exact filled.store
    | answer n =>
      rw [step]
      rcases answer_cases s n with ⟨_, same⟩ | ⟨i, r, _, _, _, _, _, now, _, _, store⟩
      · rw [same]
        exact filled.store
      · rw [store]
        exact Store.filled_carryOut filled.store (filled.underWay i r (by simp [now]))
    | carryOut r => exact absurd quiet id
    | _ => exact filled.store
  underWay i r member := by
    rcases underWay_step member with member | ⟨kind, _, member⟩
    · exact filled.underWay i r member
    · exact BatchedWriter.filled_beginFlush member

theorem filled_run {s : Writing ι} (filled : s.Filled) {actions : List (Action ι)}
    (quiet : ∀ a ∈ actions, a.Quiet) : (s.run actions).Filled := by
  induction actions generalizing s with
  | nil => exact filled
  | cons a actions ih =>
    exact ih (filled_step filled (quiet a List.mem_cons_self)) fun a' member =>
      quiet a' (List.mem_cons_of_mem _ member)

end Writing

end Pending

end CallTelemetry
