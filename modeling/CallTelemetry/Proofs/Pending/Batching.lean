import CallTelemetry.Proofs.Pending.Grouping
import CallTelemetry.Proofs.Pending.Writing

/-! The requests of a flush. The rows of each table go out in batches, and whichever way the
requests end, those that are still to be sent stay as they were. -/
namespace CallTelemetry

open Pending

/-- The rows that a request adds to a table. -/
def Request.rowsOf? (table : TableName) : Request → Option (List Increment)
  | .increments table' rows => if table' = table then some rows else none
  | _ => none

namespace Pending

variable {σ : Type}

/-- Sends the rows of each table in batches, and gives back those that find no room. -/
def sendTables (capacity : Nat) (send : σ → Request → σ) (giveBack : TableName → σ → Increment → σ)
    (s : σ) (tables : List (TableName × List Increment)) : σ :=
  tables.foldl (fun s t =>
    Batch.sendAll capacity (fun s rows => send s (.increments t.1 rows)) (giveBack t.1) s t.2) s

theorem sendTables_eq (w : BatchedWriter) (send : σ → Request → σ)
    (giveBack : TableName → σ → Increment → σ) (s : σ) (drained : List (Cell × Int64)) :
    sendTables (max w.batchSize 1) send giveBack s (merge w.salting drained) =
      (w.incrementRequests drained).foldl send s := by
  simp only [sendTables, Batch.sendAll_eq, BatchedWriter.incrementRequests, List.foldl_flatMap,
    List.foldl_map]

/-- Of tables with distinct names, what one of them comes to. -/
theorem flatMap_of_nodup {tables : List (TableName × List Increment)}
    {t : TableName × List Increment} {f : TableName × List Increment → List β}
    (once : (tables.map (·.1)).Nodup) (member : t ∈ tables)
    (others : ∀ t' ∈ tables, t'.1 ≠ t.1 → f t' = []) : tables.flatMap f = f t := by
  induction tables with
  | nil => exact absurd member List.not_mem_nil
  | cons first rest ih =>
    rw [List.map_cons, List.nodup_cons] at once
    rw [List.flatMap_cons]
    rcases List.mem_cons.1 member with rfl | member
    · have none : rest.flatMap f = [] := List.flatMap_eq_nil_iff.2 fun t' later =>
        others t' (List.mem_cons_of_mem _ later) fun same =>
          once.1 (same ▸ List.mem_map_of_mem later)
      rw [none, List.append_nil]
    · have apart : first.1 ≠ t.1 := fun same => once.1 (same ▸ List.mem_map_of_mem member)
      rw [others first List.mem_cons_self apart, List.nil_append]
      exact ih once.2 member fun t' later => others t' (List.mem_cons_of_mem _ later)

/-- The batches of one table, in the order of the requests. -/
theorem batches_of_table {w : BatchedWriter} {drained : List (Cell × Int64)}
    {t : TableName × List Increment} (member : t ∈ merge w.salting drained) :
    (w.incrementRequests drained).filterMap (Request.rowsOf? t.1) = chunks w.batchSize t.2 := by
  rw [BatchedWriter.incrementRequests, List.filterMap_flatMap,
    flatMap_of_nodup (merge_names_nodup w.salting drained) member, List.filterMap_map]
  · have own : Request.rowsOf? t.1 ∘ Request.increments t.1 = some := funext fun _ => if_pos rfl
    rw [own, List.filterMap_some]
  · intro t' _ apart
    rw [List.filterMap_map]
    exact List.filterMap_eq_nil_iff.2 fun rows _ => if_neg apart

/-! Requests and their answers. -/

namespace Writing

variable {ι : Type} [DecidableEq ι]

/-- The request of a writer that an action ends. -/
def ended (i : ι) (s : Writing ι) : Action ι → List Request
  | .answer n =>
    match s.answered n with
    | some (j, r, _) => if j = i then [r] else []
    | none => []
  | _ => []

theorem delivery_flush (s : Writing ι) (i : ι) (kind : Flushing)
    (some : ((s.writers i).beginFlush kind).1 ≠ []) :
    ⟨i, kind, ((s.writers i).beginFlush kind).1, 0⟩ ∈ (s.flush i kind).deliveries := by
  unfold flush
  dsimp only
  rw [if_neg (mt List.isEmpty_iff.1 some)]
  exact List.mem_append_right _ List.mem_cons_self

/-- An action leaves a flush that is under way as it was, or it ends the first of its requests. -/
theorem delivery_step {s : Writing ι} {d : Delivery ι} (member : d ∈ s.deliveries)
    (a : Action ι) :
    d ∈ (s.step a).deliveries ∨ ∃ r rest, d.waiting = r :: rest ∧ ended d.writer s a = [r] ∧
      (rest = [] ∨ ∃ d' ∈ (s.step a).deliveries, d'.writer = d.writer ∧ d'.waiting = rest) := by
  cases a with
  | flush j kind =>
    left
    rw [step, flush]
    dsimp only
    split
    next => exact member
    next => exact List.mem_append_left _ member
  | answer n =>
    rw [step]
    rcases answer_delivery s n with ⟨-, same⟩ |
      ⟨before, d', after, r, rest, -, now, waiting, found, -, outcome⟩
    · exact .inl (same.symm ▸ member)
    · rw [now, List.mem_append, List.mem_cons] at member
      by_cases here : d = d'
      · subst here
        refine .inr ⟨r, rest, waiting, by simp [ended, found], ?_⟩
        rcases outcome with ⟨last, -⟩ | ⟨left, -⟩
        · exact .inl last
        · rw [left]
          exact .inr ⟨_, List.mem_append_right _ List.mem_cons_self, rfl, rfl⟩
      · have other : d ∈ before ∨ d ∈ after := member.imp_right fun rest => rest.resolve_left here
        left
        rcases outcome with ⟨-, gone, -⟩ | ⟨left, -⟩
        · rw [gone]
          exact List.mem_append.2 other
        · rw [left]
          exact List.mem_append.2 (other.imp_right (List.mem_cons_of_mem _))
  | _ => exact .inl member

/-- What is still to be sent of a flush is the end of what it began with. -/
theorem delivery_run {s : Writing ι} {d : Delivery ι} (member : d ∈ s.deliveries)
    (actions : List (Action ι)) :
    ∃ sent rest, d.waiting = sent ++ rest ∧ sent.Sublist (along (ended d.writer) s actions) ∧
      (rest ≠ [] →
        ∃ d' ∈ (s.run actions).deliveries, d'.writer = d.writer ∧ d'.waiting = rest) := by
  induction actions generalizing s d with
  | nil => exact ⟨[], d.waiting, rfl, List.nil_sublist _, fun _ => ⟨d, member, rfl, rfl⟩⟩
  | cons a actions ih =>
    rcases delivery_step member a with kept | ⟨r, rest, waiting, ends, last | ⟨d', kept, own, left⟩⟩
    · obtain ⟨sent, rest, parts, order, left⟩ := ih kept
      exact ⟨sent, rest, parts, order.trans (List.sublist_append_right _ _), left⟩
    · refine ⟨[r], [], by rw [waiting, last]; rfl, ?_, fun some => absurd rfl some⟩
      rw [along, ends]
      exact (List.nil_sublist _).cons_cons r
    · obtain ⟨sent, rest', parts, order, still⟩ := ih kept
      rw [own] at order still
      refine ⟨r :: sent, rest', by rw [waiting, ← left, parts]; rfl, ?_, still⟩
      rw [along, ends]
      exact order.cons_cons r

/-- A flush sends each merged row once. The rows of a table go out in as few requests as their
number takes, none of which is empty or too long, and together these hold the rows in order. Sending
them by way of a batch comes to the same, so that no row is ever given back. However its requests
end, and whatever is done in between, what a flush has still to send is the end of what it began
with. -/
theorem flush_in_batches (s : Writing ι) (i : ι) :
    let w := s.writers i
    let size := max w.batchSize 1
    let tables := merge w.salting w.drainCounters.1
    let requests := (w.beginFlush .counters).1
    (∀ (σ : Type) (send : σ → Request → σ) (giveBack : TableName → σ → Increment → σ) (start : σ),
      sendTables size send giveBack start tables = requests.foldl send start) ∧
    (∀ r ∈ requests, ∃ t ∈ tables, ∃ batch, r = .increments t.1 batch) ∧
    (∀ t ∈ tables,
      let batches := requests.filterMap (Request.rowsOf? t.1)
      batches.length = (t.2.length + size - 1) / size ∧
      (∀ batch ∈ batches, 1 ≤ batch.length ∧ batch.length ≤ size) ∧ batches.flatten = t.2) ∧
    ∀ actions, ∃ sent rest, requests = sent ++ rest ∧
      sent.Sublist (along (ended i) (s.flush i .counters) actions) ∧
      (rest ≠ [] → ∃ d ∈ ((s.flush i .counters).run actions).deliveries,
        d.writer = i ∧ d.waiting = rest) := by
  intro w size tables requests
  refine ⟨fun σ send giveBack start => sendTables_eq w send giveBack start w.drainCounters.1,
    fun r member => ?_, fun t member => ?_, fun actions => ?_⟩
  · obtain ⟨t, table, batch, same, -⟩ := mem_incrementRequests member
    exact ⟨t, table, batch, same⟩
  · have cut : requests.filterMap (Request.rowsOf? t.1) = chunks w.batchSize t.2 :=
      batches_of_table member
    dsimp only
    rw [cut]
    exact ⟨chunks_length _ _, fun batch => chunk_bounds, chunks_flatten _ _⟩
  · by_cases none : requests = []
    · exact ⟨[], [], none, List.nil_sublist _, fun some => absurd rfl some⟩
    · exact delivery_run (delivery_flush s i .counters none) actions

/-- A writer of batches of two rows that has five rows to write. -/
def fiveRows : Writing Unit where
  writers _ :=
    ⟨⟨"t"⟩, [0], ⟨10, by decide, by decide⟩, 2, none, none,
      ⟨.ofList ([1, 2, 3, 4, 5].map fun row => (⟨⟨"t"⟩, [row], [0], [1]⟩, 7)), 5⟩, .empty, .empty⟩
  store := .empty
  deliveries := []

theorem flush_in_batches_fiveRows :
    let batches :=
      ((fiveRows.writers ()).beginFlush .counters).1.filterMap (Request.rowsOf? ⟨"t"⟩)
    batches.length = 3 ∧ (∀ batch ∈ batches, 1 ≤ batch.length ∧ batch.length ≤ 2) ∧
      batches.flatten.map (·.row.tail) = [[1], [2], [3], [4], [5]] := by
  have merged : ∃ t ∈ merge (fiveRows.writers ()).salting (fiveRows.writers ()).drainCounters.1,
      t.1 = ⟨"t"⟩ ∧ t.2.length = 5 ∧ t.2.map (·.row.tail) = [[1], [2], [3], [4], [5]] := by
    rw [merge, List.mergeSort_of_pairwise (by decide)]
    decide
  obtain ⟨t, member, name, five, rows⟩ := merged
  obtain ⟨count, bounds, flat⟩ := (flush_in_batches fiveRows ()).2.2.1 t member
  rw [name] at count bounds flat
  exact ⟨count.trans (by rw [five]; rfl), bounds, flat ▸ rows⟩

end Writing

end Pending

end CallTelemetry
