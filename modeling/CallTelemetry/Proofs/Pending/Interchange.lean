import Mathlib
import CallTelemetry.Proofs.Pending.Direct

/-! A batched writer and a direct one are interchangeable. Told the same, they leave the same table
behind, wherever the batched one was flushed, as long as it was flushed in the end. -/
namespace CallTelemetry

open Pending

namespace Pending

theorem RowImage.behind_zero (r : RowImage) : r.behind 0 = r.key := by
  unfold behind
  split <;> rfl

/-- The writer that does not batch, and writes to the same place. -/
def BatchedWriter.direct (w : BatchedWriter) (timeout : Nat) : DirectWriter :=
  ⟨w.table, w.family, w.salting, timeout, .empty⟩

namespace DirectWriter

/-- The cell of the store that a mutation is meant for. -/
def place (w : DirectWriter) (m : Mutation) : Cell :=
  (⟨w.table, m.row.key, w.family, m.column⟩ : Cell).salted w.salting

def changes (w : DirectWriter) (m : Mutation) (kind : Flushing) : List (Cell × Int64) :=
  if m.kind = kind then [(w.place m, m.value)] else []

/-- A row key with room for a salt is written where a batched writer writes it. -/
theorem request_of_wide (w : DirectWriter) {m : Mutation} (wide : m.row.leavesRoom) :
    ∃ r, w.request? m = some r ∧ r.changes = w.changes m ∧ r.cells = [w.place m] ∧
      r.kind? = some m.kind ∧ ∀ table row name value, r ≠ .put table row name value := by
  have salted : w.salting.writeSalt (m.row.behind Salting.width) =
      .ok (w.salting.salted m.row.key) := by
    rw [RowImage.behind, if_pos wide]
    rfl
  unfold request? changes Mutation.kind Mutation.value
  rw [salted]
  cases m.change with
  | add delta =>
    refine ⟨_, rfl, funext fun kind => ?_, rfl, rfl, by simp⟩
    cases kind <;> rfl
  | raise value =>
    refine ⟨_, rfl, funext fun kind => ?_, rfl, rfl, by simp⟩
    cases kind <;> rfl

section

variable (w : DirectWriter) {ms : List Mutation} (wide : ∀ m ∈ ms, m.row.leavesRoom = true)

include wide

theorem words_writes {s : Store} (words : s.Words) : (ms.foldl w.write s).Words := by
  induction ms generalizing s with
  | nil => exact words
  | cons m ms ih =>
    obtain ⟨r, made, _, _, _, noPut⟩ := w.request_of_wide (wide m List.mem_cons_self)
    have arrived : s.arrive.Words := words
    refine ih (fun m' member => wide m' (List.mem_cons_of_mem _ member)) ?_
    rw [write, made]
    exact Store.words_apply arrived noPut

theorem cell?_writes {p : Cell} (apart : ∀ m ∈ ms, w.place m ≠ p) (s : Store) :
    (ms.foldl w.write s).cell? p = s.cell? p := by
  induction ms generalizing s with
  | nil => rfl
  | cons m ms ih =>
    obtain ⟨r, made, _, cells, _⟩ := w.request_of_wide (wide m List.mem_cons_self)
    have other : p ∉ r.cells := by
      rw [cells, List.mem_singleton]
      exact (apart m List.mem_cons_self).symm
    rw [List.foldl_cons, ih (fun m' member => wide m' (List.mem_cons_of_mem _ member))
      (fun m' member => apart m' (List.mem_cons_of_mem _ member)), write, made]
    exact (Store.cell?_apply_of_not_mem other).trans (Store.cell?_arrive s p)

theorem stored_writes (g : Ledger) {p : Cell} (alone : ∀ m ∈ ms, w.place m = p → m.kind = g.kind)
    (s : Store) :
    g.stored ((ms.foldl w.write s).cell? p) =
      g.join (g.stored (s.cell? p)) (g.total p (ms.flatMap fun m => w.changes m g.kind)) := by
  induction ms generalizing s with
  | nil => exact (g.join_nothing _).symm
  | cons m ms ih =>
    obtain ⟨r, made, changes, cells, kind, _⟩ := w.request_of_wide (wide m List.mem_cons_self)
    have only (touched : p ∈ r.cells) : r.kind? = some g.kind := by
      rw [cells, List.mem_singleton] at touched
      rw [kind, alone m List.mem_cons_self touched.symm]
    have first : g.stored ((w.write s m).cell? p) =
        g.join (g.stored (s.cell? p)) (g.total p (w.changes m g.kind)) := by
      rw [write, made, ← changes]
      exact g.stored_apply s.arrive r p only
    rw [List.foldl_cons, ih (fun m' member => wide m' (List.mem_cons_of_mem _ member))
      (fun m' member => alone m' (List.mem_cons_of_mem _ member)), first, List.flatMap_cons,
      g.total_append, g.assoc]

end

end DirectWriter

end Pending

namespace Timeline

/-- Calls of one writer: mutations, flushes of one kind of its cells, and a last flush of both. -/
def callsToEnd (name : String) (l : List (Mutation ⊕ Flushing)) : List Call :=
  l.map (Sum.elim (.mutate name) fun kind => .flush [(name, kind)]) ++
    [.flush [(name, .counters), (name, .maxima)]]

def mutations (l : List (Mutation ⊕ Flushing)) : List Mutation :=
  l.filterMap (Sum.elim some fun _ => none)

theorem told_callsToEnd (name name' : String) (l : List (Mutation ⊕ Flushing)) :
    Call.told name' (callsToEnd name l) = if name = name' then mutations l else [] := by
  induction l with
  | nil => simp [callsToEnd, mutations, Call.told]
  | cons call l ih =>
    cases call with
    | inl m =>
      refine (Call.told_mutate name' name m (callsToEnd name l)).trans ?_
      rw [ih]
      by_cases same : name = name' <;> simp [same, mutations]
    | inr kind => exact ih

/-- A writer that starts alone. -/
theorem start_alone (name : String) (w : Writer) (name' : String) :
    (start [(name, w)]).writers.get? name' = if name' = name then some w else none := by
  have single : (start [(name, w)]).writers = SortedMap.empty.insert name w := rfl
  rw [single, SortedMap.get?_insert, SortedMap.get?_empty]

theorem start_prompt (writers : List (String × Writer)) : (start writers).Prompt := ⟨rfl, rfl⟩

theorem words_start (writers : List (String × Writer)) : (start writers).store.Words := by
  intro c bytes found
  cases found

section

variable (name : String) (w : BatchedWriter) (d : DirectWriter) (millis : Nat)
  (l : List (Mutation ⊕ Flushing))

/-- The store that a batched writer leaves behind. -/
def batchedStore : Store := ((start [(name, .batched w)]).calls (callsToEnd name l)).store

/-- The store that a direct writer leaves behind. -/
def directStore : Store :=
  (((start [(name, .direct d)]).calls (callsToEnd name l)).sleep (millis + 1)).store

theorem directStore_eq : directStore name d millis l = (mutations l).foldl d.write .empty := by
  have direct : (start [(name, .direct d)]).Direct name d := by
    refine ⟨start_prompt _, ⟨d.report, by simp [start_alone]⟩, fun name' b found => ?_,
      fun e member => absurd member (by simp [start])⟩
    rw [start_alone] at found
    split at found <;> simp at found
  obtain ⟨direct', settled⟩ := settled_calls (l := callsToEnd name l) direct fun name' apart => by
    rw [told_callsToEnd, if_neg (Ne.symm apart)]
  rw [directStore, store_sleep direct', settled, told_callsToEnd, if_pos rfl]
  rfl

end

section

variable {name : String} {w : BatchedWriter} (idle : ∀ kind, w.pending kind = .empty)
  {l : List (Mutation ⊕ Flushing)} (room : (start [(name, .batched w)]).admits (callsToEnd name l))

theorem place_direct (w : BatchedWriter) (timeout : Nat) (m : Mutation) :
    (w.target m).salted w.salting = (w.direct timeout).place m := by
  rw [BatchedWriter.target, BatchedWriter.cell, RowImage.behind_zero]
  rfl

theorem changes_direct (w : BatchedWriter) (timeout : Nat) (m : Mutation) (kind : Flushing) :
    (w.direct timeout).changes m kind = (w.changes m kind).map (saltedEntry w.salting) := by
  rw [DirectWriter.changes, BatchedWriter.changes, ← place_direct]
  split <;> rfl

theorem knows_start : (start [(name, .batched w)]).Knows (callsToEnd name l) := by
  intro name' m told
  rw [told_callsToEnd] at told
  split at told
  next same => exact ⟨w, by simp [start_alone, same]⟩
  next => simp at told

/-- Only one writer is told anything. -/
theorem told_alone {name' : String} {w' : BatchedWriter}
    (found : (start [(name, .batched w)]).writers.get? name' = some (.batched w')) {m : Mutation}
    (told : m ∈ Call.told name' (callsToEnd name l)) :
    name' = name ∧ w' = w ∧ m ∈ mutations l := by
  rw [start_alone] at found
  rw [told_callsToEnd] at told
  split at found
  next same =>
    subst same
    rw [if_pos rfl] at told
    exact ⟨rfl, by simpa using found.symm, told⟩
  next => simp at found

include idle

theorem fresh_start : (start [(name, .batched w)]).Fresh := by
  refine ⟨⟨start_prompt _, rfl⟩, fun name' w' found kind => ?_⟩
  rw [start_alone] at found
  split at found
  next => 
    obtain rfl : w = w' := by simpa using found
    exact idle kind
  next => simp at found

include room

/-- Both leave behind what comes to the same in a cell of one kind. -/
theorem stored_eq (g : Ledger) (timeout millis : Nat)
    (wide : ∀ m ∈ mutations l, m.row.leavesRoom = true) {c : Cell}
    (alone : ∀ m ∈ mutations l, (w.direct timeout).place m = c.salted w.salting → m.kind = g.kind) :
    g.stored ((batchedStore name w l).cell? (c.salted w.salting)) =
      g.stored ((directStore name (w.direct timeout) millis l).cell? (c.salted w.salting)) := by
  have found : (start [(name, .batched w)]).writers.get? name = some (.batched w) := by
    simp [start_alone]
  have only (name' : String) (w' : BatchedWriter)
      (found' : (start [(name, .batched w)]).writers.get? name' = some (.batched w'))
      (m : Mutation) (told : m ∈ Call.told name' (callsToEnd name l))
      (here : (w'.target m).salted w'.salting = c.salted w.salting) :
      name' = name ∧ m.kind = g.kind := by
    obtain ⟨same, rfl, member⟩ := told_alone found' told
    exact ⟨same, alone m member (place_direct w' timeout m ▸ here)⟩
  have batched := stored_of_calls (fresh_start idle) knows_start room g found only rfl
    (by cases g.kind <;> simp)
  have total : g.total (c.salted w.salting)
      ((mutations l).flatMap fun m => (w.direct timeout).changes m g.kind) =
        g.total c ((mutations l).flatMap fun m => w.changes m g.kind) := by
    simp only [changes_direct, ← List.map_flatMap]
    exact g.total_salted w.salting c _
  rw [batchedStore, batched, directStore_eq, (w.direct timeout).stored_writes wide g alone, total,
    told_callsToEnd, if_pos rfl]
  rfl

theorem cell?_eq (timeout millis : Nat) (wide : ∀ m ∈ mutations l, m.row.leavesRoom = true)
    {p : Cell} (apart : ∀ m ∈ mutations l, (w.direct timeout).place m ≠ p) :
    (batchedStore name w l).cell? p = (directStore name (w.direct timeout) millis l).cell? p := by
  have batched : (batchedStore name w l).cell? p = none :=
    cell?_of_calls (fresh_start idle) knows_start room fun name' w' found m told => by
      obtain ⟨rfl, rfl, member⟩ := told_alone found told
      rw [place_direct w' timeout]
      exact apart m member
  rw [batched, directStore_eq, (w.direct timeout).cell?_writes wide apart]
  rfl

end

/-- Told the same, a batched writer that was flushed in the end and a direct one whose requests have
ended leave the same cells behind; only a counter may be missing where the other is zero. -/
theorem interchangeable (name space : String) (f : ColumnFamily) (salting : Salting)
    (batchSize timeout millis : Nat) (counterLimit maximumLimit : Option Nat)
    (l : List (Mutation ⊕ Flushing)) (wide : ∀ m ∈ mutations l, m.row.leavesRoom = true)
    (apart : ∀ m ∈ mutations l, ∀ m' ∈ mutations l, m.row.key = m'.row.key →
      m.column = m'.column → m.kind = m'.kind)
    (room : (start [(name, .batchedOver f space salting batchSize counterLimit
      maximumLimit)]).admits (callsToEnd name l)) :
    let batched := ((start [(name, .batchedOver f space salting batchSize counterLimit
      maximumLimit)]).calls (callsToEnd name l)).store
    let direct := (((start [(name, .directOver f space salting timeout)]).calls
      (callsToEnd name l)).sleep (millis + 1)).store
    ∀ c,
      (batched.cell? c).getD (Bytes.ofInt64 0) = (direct.cell? c).getD (Bytes.ofInt64 0) ∧
      ((∀ m ∈ mutations l, m.kind = .counters →
        c ≠ (⟨f.tableIn space, m.row.key, f.family, m.column⟩ : Cell).salted salting) →
        batched.cell? c = direct.cell? c) := by
  let w : BatchedWriter := ⟨f.tableIn space, f.family, salting, batchSize, counterLimit,
    maximumLimit, .empty, .empty, .empty⟩
  let d := w.direct timeout
  have idle (kind : Flushing) : w.pending kind = .empty := by cases kind <;> rfl
  have words : (batchedStore name w l).Words :=
    words_of_calls (fresh_start idle) knows_start room (words_start _)
  have words' : (directStore name d millis l).Words := by
    rw [directStore_eq]
    exact d.words_writes wide (words_start [])
  intro batched direct c
  by_cases touched : ∃ m ∈ mutations l, d.place m = c
  · obtain ⟨m, member, rfl⟩ := touched
    have alone (m' : Mutation) (member' : m' ∈ mutations l) (here : d.place m' = d.place m) :
        m'.kind = m.kind := by
      have cell := Cell.salted_injective _ here
      simp only [Cell.mk.injEq] at cell
      exact apart m' member' m member cell.2.1 cell.2.2.2
    cases kind : m.kind with
    | counters =>
      have counters := stored_eq idle room .counters timeout millis wide
        fun m' member' here => (alone m' member' here).trans kind
      refine ⟨words.counter_eq words' counters, fun elsewhere => ?_⟩
      exact absurd rfl (elsewhere m member kind)
    | maxima =>
      have maxima := stored_eq idle room .maxima timeout millis wide
        fun m' member' here => (alone m' member' here).trans kind
      have same := words.peak_eq words' maxima
      exact ⟨congrArg (Option.getD · (Bytes.ofInt64 0)) same, fun _ => same⟩
  · have same := cell?_eq idle room timeout millis wide fun m member here =>
      touched ⟨m, member, here⟩
    exact ⟨congrArg (Option.getD · (Bytes.ofInt64 0)) same, fun _ => same⟩

/-- Additions that come to nothing, before and after a flush, and a value that was exceeded already. -/
def mixedCalls : List (Mutation ⊕ Flushing) :=
  let row (key : UInt8) : RowImage := ⟨[key, 9], true⟩
  [.inl ⟨row 1, [1], .add 5⟩, .inl ⟨row 2, [1], .add (-7)⟩, .inr .counters,
    .inl ⟨row 1, [1], .add (-5)⟩, .inl ⟨row 1, [2], .raise 4⟩, .inr .maxima,
    .inl ⟨row 1, [2], .raise 3⟩, .inl ⟨row 3, [1], .add 0⟩]

theorem interchangeable_mixedCalls :
    let salting : Salting := ⟨3, by decide, by decide⟩
    let batched := ((start [("caller", .batchedOver .callerCounter "a" salting 1 (some 2)
      (some 1))]).calls (callsToEnd "caller" mixedCalls)).store
    let direct := (((start [("caller", .directOver .callerCounter "a" salting 0)]).calls
      (callsToEnd "caller" mixedCalls)).sleep 1).store
    ∀ c, (batched.cell? c).getD (Bytes.ofInt64 0) = (direct.cell? c).getD (Bytes.ofInt64 0) :=
  fun c => (interchangeable "caller" "a" .callerCounter ⟨3, by decide, by decide⟩ 1 0 0 (some 2)
    (some 1) mixedCalls (by decide) (by decide) (by cbv) c).1

end Timeline

end CallTelemetry
