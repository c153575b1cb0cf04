import CallTelemetry.Proofs.Statistics.Record
import CallTelemetry.Proofs.Topology.Query

/-! Reading records back. Where a table keeps records, what is read of an application in a window of
time are the links that its own records of that time make when they are counted one by one. -/
namespace CallTelemetry.Topology

open Latency Pending Statistics

instance (a : Application) (w : TimeWindow) (k : RowKey) : Decidable (Query.Wanted a w k) :=
  inferInstanceAs (Decidable (_ ∧ _ ∧ _ ∧ _))

theorem Links.addAll_eq {ε : Type} (t : ε → Tally) (slot : ε → Slot) {l : List ε}
    (known : ∀ e ∈ l, (t e).slot? = some (slot e)) :
    Links.addAll .empty (l.map t) = Links.ofAdditions (l.map fun e => (t e).addition (slot e)) := by
  have general (links : Links) :
      Links.addAll links (l.map t) = (l.map fun e => (t e).addition (slot e)).foldl addSlot links := by
    induction l generalizing links with
    | nil => rfl
    | cons e l ih =>
      have rest := ih (fun e' member => known e' (List.mem_cons_of_mem e member))
        (links.add (t e)).2
      rw [add_eq (known e List.mem_cons_self)] at rest
      rw [List.map_cons, List.map_cons, List.foldl_cons, ← rest]
      simp only [addAll, List.foldl_cons, add_eq (known e List.mem_cons_self)]
  exact general .empty

namespace Query

section

variable {κ : Type}

variable {decode : Bytes → Except RowError κ} {tally : κ → Int → Int64 → Tally}

/-- The numbers that are read of a row, under its key and their columns. -/
def numbers (decode : Bytes → Except RowError κ) (r : RowKey × Row) :
    List ((RowKey × κ) × Int64) :=
  (r.2.cells.entries.filterMap (cell? decode)).map fun (column, count) => ((r.1, column), count)

theorem tallies_eq (w : TimeWindow) (aggregated : Bool) (r : RowKey × Row) :
    tallies decode tally w aggregated r =
      (numbers decode r).map fun e => tally e.1.2 (linkTime w aggregated e.1.1) e.2 := by
  simp [tallies, numbers]

theorem present_of_count {s : Store} {c : Cell} {count : Int64} (counted : s.count? c = some count) :
    s.cell? c ≠ none := by
  intro absent
  simp [Store.count?, absent] at counted

theorem cell?_eq_some {name : CellName} {bytes : Bytes} {column : κ} {count : Int64} :
    cell? decode (name, bytes) = some (column, count) ↔
      decode name.qualifier = .ok column ∧ Bytes.toCounter? bytes = some count := by
  simp only [cell?]
  cases decode name.qualifier <;> cases Bytes.toCounter? bytes <;> simp [Except.toOption]

/-- What is read of a row that a table holds. -/
theorem mem_numbers {s : Store} {table : TableName} {r : RowKey × Row}
    (held : (s.rows table).get? r.2.key = some r.2.cells) {e : (RowKey × κ) × Int64} :
    e ∈ numbers decode r ↔ e.1.1 = r.1 ∧ ∃ family qualifier, decode qualifier = .ok e.1.2 ∧
      s.count? ⟨table, r.2.key, family, qualifier⟩ = some e.2 := by
  have count (family qualifier : Bytes) :
      s.count? ⟨table, r.2.key, family, qualifier⟩ =
        (r.2.cells.get? ⟨family, qualifier⟩).bind Bytes.toCounter? := by
    simp [Store.count?, Store.cell?, SortedMap.getD, held]
  simp only [numbers, List.mem_map, List.mem_filterMap, count, Option.bind_eq_some_iff]
  constructor
  · rintro ⟨⟨column, number⟩, ⟨⟨name, bytes⟩, member, read⟩, rfl⟩
    obtain ⟨decoded, number⟩ := cell?_eq_some.1 read
    exact ⟨rfl, name.family, name.qualifier, decoded, bytes, SortedMap.mem_entries_iff.1 member,
      number⟩
  · obtain ⟨⟨k, column⟩, number⟩ := e
    rintro ⟨rfl, family, qualifier, decoded, bytes, here, number⟩
    exact ⟨(column, _), ⟨(⟨family, qualifier⟩, bytes), SortedMap.mem_entries_iff.2 here,
      cell?_eq_some.2 ⟨decoded, number⟩⟩, rfl⟩

end

variable {κ : Type} [DecidableEq κ]

/-- Whether a reader can make out the records of a writer, and tell the slots of those that are asked
for. Beside every record there is one that comes to something, in the same row and at the same ends. -/
structure Legible (d : Destination κ) (decode : Bytes → Except RowError κ)
    (tally : κ → Int → Int64 → Tally) (a : Application) (w : TimeWindow) (l : List (Record κ)) :
    Prop where
  row : ∀ r ∈ l, r.row.Sound
  column : ∀ r ∈ l, decode (d.encode r.column) = .ok r.column
  slot : ∀ r ∈ l, Wanted a w r.row → ∀ time count, (tally r.column time count).slot? = some r.slot
  told : ∀ column time count, tally column time count = { tally column 0 0 with time, count }
  beside : ∀ r ∈ l, ∃ r' ∈ l, r'.row = r.row ∧
    (tally r'.column 0 0).edge = (tally r.column 0 0).edge ∧
    (tally r'.column 0 0).ends = (tally r.column 0 0).ends ∧ recorded l r'.key r'.slot ≠ 0

/-- The addition of a number under its row and column; only its value is left open. -/
def shape (tally : κ → Int → Int64 → Tally) (w : TimeWindow) (aggregated : Bool)
    (key : RowKey × κ) : Addition :=
  (tally key.2 (linkTime w aggregated key.1) 0).addition ((tally key.2 0 0).slot?.getD .sum)

namespace Legible

variable {d : Destination κ} {decode : Bytes → Except RowError κ} {tally : κ → Int → Int64 → Tally}
  {a : Application} {w : TimeWindow} {l : List (Record κ)} (legible : Legible d decode tally a w l)
  (aggregated : Bool)

include legible

theorem shape_slot {r : Record κ} (member : r ∈ l) (here : Wanted a w r.row) :
    (shape tally w aggregated r.key).slot = r.slot := by
  have slot := legible.slot r member here 0 0
  simp [shape, Tally.addition, Record.key, slot]

theorem under_shape {r : Record κ} (member : r ∈ l) (here : Wanted a w r.row) (count : Int64) :
    (tally r.column (linkTime w aggregated r.row) count).addition r.slot =
      Addition.under (shape tally w aggregated) (r.key, count) := by
  have slot := legible.slot r member here 0 0
  have time := legible.told r.column (linkTime w aggregated r.row)
  rw [Addition.under, shape, Record.key, slot, time count, time 0]
  rfl

/-- What the records that are asked for add. -/
theorem entries_under : (entries (l.filter (Wanted a w ·.row))).map
    (Addition.under (shape tally w aggregated)) = (l.filter (Wanted a w ·.row)).map fun r =>
      (tally r.column (linkTime w aggregated r.row) r.value).addition r.slot := by
  rw [entries, List.map_map]
  refine List.map_congr_left fun r member => ?_
  obtain ⟨inside, here⟩ := List.mem_filter.1 member
  exact (legible.under_shape aggregated inside (of_decide_eq_true here) _).symm

theorem place_shape {r r' : Record κ} (rows : r'.row = r.row)
    (edges : (tally r'.column 0 0).edge = (tally r.column 0 0).edge)
    (ends : (tally r'.column 0 0).ends = (tally r.column 0 0).ends) :
    (shape tally w aggregated r'.key).place = (shape tally w aggregated r.key).place := by
  have place (r : Record κ) : (shape tally w aggregated r.key).place =
      ((tally r.column 0 0).edge, (tally r.column 0 0).ends, linkTime w aggregated r.row, ()) := by
    rw [shape, Record.key, legible.told]
    rfl
  rw [place, place, rows, edges, ends]

end Legible

theorem filter_entries {l : List (Record κ)} {a : Application} {w : TimeWindow} {r : Record κ}
    (here : Wanted a w r.row) :
    ((entries (l.filter (Wanted a w ·.row))).filter fun e => e.1 = r.key) =
      (entries l).filter fun e => e.1 = r.key := by
  rw [entries, entries, List.filter_map, List.filter_map, List.filter_filter]
  refine congrArg _ (List.filter_congr fun r' _ => ?_)
  by_cases same : r'.key = r.key
  · simp [same, (Prod.mk.inj same).1, here]
  · simp [same]

section

variable {s : Store} {d : Destination κ} {decode : Bytes → Except RowError κ}
  {tally : κ → Int → Int64 → Tally} {l : List (Record κ)} {reading : Salting} {a : Application}
  {w : TimeWindow} (keeps : Keeps s d l) (legible : Legible d decode tally a w l)
  (salts : d.salting.buckets ≤ reading.buckets) (fits : Identifier.Fits a.name)
  (nonneg : 0 ≤ w.range.first) (ordered : w.range.first ≤ w.range.last)
  (bound : w.range.last ≤ lastMillis)

/-- All numbers that are read. -/
def allNumbers (s : Store) (table : TableName) (decode : Bytes → Except RowError κ)
    (reading : Salting) (a : Application) (w : TimeWindow) : List ((RowKey × κ) × Int64) :=
  (found reading (s.rows table) a w).flatMap (numbers decode)

include keeps legible salts fits nonneg ordered bound

/-- A cell of a row that is found is that of a record. -/
theorem origin_of_found {r : RowKey × Row} (member : r ∈ found reading (s.rows d.table) a w)
    {family qualifier : Bytes} (present : s.cell? ⟨d.table, r.2.key, family, qualifier⟩ ≠ none) :
    ∃ record ∈ l, record.row = r.1 ∧ Wanted a w record.row ∧
      r.2.key = d.salting.salted record.row.encode ∧ family = d.family ∧
      qualifier = d.encode record.column := by
  obtain ⟨record, inside, place⟩ := keeps.origin _ rfl present
  obtain ⟨-, key, families, qualifiers⟩ := Cell.mk.inj place
  obtain ⟨same, wanted, -⟩ := (mem_found fits nonneg ordered bound salts
    (legible.row record inside) key.symm).1 member
  exact ⟨record, inside, same.symm, wanted, key.symm, families.symm, qualifiers.symm⟩

/-- A number is read if it is that of a record whose row is asked for. -/
theorem mem_allNumbers {e : (RowKey × κ) × Int64} :
    e ∈ allNumbers s d.table decode reading a w ↔
      ∃ r ∈ l, r.key = e.1 ∧ Wanted a w r.row ∧ s.count? (d.place r.row r.column) = some e.2 := by
  rw [allNumbers, List.mem_flatMap]
  constructor
  · rintro ⟨⟨k, row⟩, member, number⟩
    obtain ⟨rfl, family, qualifier, decoded, count⟩ := (mem_numbers (held_of_found member)).1 number
    obtain ⟨r, inside, same, wanted, key, rfl, rfl⟩ :=
      origin_of_found keeps legible salts fits nonneg ordered bound member
        (present_of_count count)
    rw [legible.column r inside] at decoded
    refine ⟨r, inside, Prod.ext same (Except.ok.inj decoded), wanted, ?_⟩
    rwa [Destination.place, ← key]
  · rintro ⟨r, inside, key, wanted, count⟩
    have held : ∃ cells, (s.rows d.table).get? (d.salting.salted r.row.encode) = some cells := by
      cases row : (s.rows d.table).get? (d.salting.salted r.row.encode) with
      | some cells => exact ⟨cells, rfl⟩
      | none => simp [Store.count?, Store.cell?, Destination.place, SortedMap.getD, row] at count
    obtain ⟨cells, held⟩ := held
    refine ⟨(r.row, ⟨d.salting.salted r.row.encode, cells⟩), (mem_found fits nonneg ordered bound
      salts (legible.row r inside) rfl).2 ⟨rfl, wanted, held⟩, (mem_numbers held).2 ?_⟩
    exact ⟨(congrArg Prod.fst key).symm, d.family, d.encode r.column,
      (congrArg Prod.snd key) ▸ legible.column r inside, count⟩

/-- No cell is read twice. -/
theorem allNumbers_distinct : (allNumbers s d.table decode reading a w).Pairwise
    fun e e' => e.1 ≠ e'.1 := by
  have origin {r : RowKey × Row} (member : r ∈ found reading (s.rows d.table) a w)
      {name : CellName} {bytes : Bytes} (here : r.2.cells.get? name = some bytes) :
      ∃ record ∈ l, record.row = r.1 ∧ Wanted a w record.row ∧
        r.2.key = d.salting.salted record.row.encode ∧ name.family = d.family ∧
        name.qualifier = d.encode record.column :=
    origin_of_found keeps legible salts fits nonneg ordered bound member
      (by simp [Store.cell?, SortedMap.getD, held_of_found member, here])
  refine List.pairwise_flatMap.2 ⟨fun r member => ?_, ?_⟩
  · refine List.pairwise_map.2 (List.pairwise_filterMap.2 (r.2.cells.ascending.imp_of_mem ?_))
    rintro ⟨name, bytes⟩ ⟨name', bytes'⟩ here here' before ⟨column, number⟩ read
      ⟨column', number'⟩ read' same
    obtain ⟨record, inside, -, -, -, family, qualifier⟩ :=
      origin member (SortedMap.mem_entries_iff.1 here)
    obtain ⟨record', inside', -, -, -, family', qualifier'⟩ :=
      origin member (SortedMap.mem_entries_iff.1 here')
    have decoded := (cell?_eq_some.1 read).1
    have decoded' := (cell?_eq_some.1 read').1
    rw [qualifier, legible.column record inside] at decoded
    rw [qualifier', legible.column record' inside'] at decoded'
    have columns : record.column = record'.column := by
      rw [Except.ok.inj decoded, Except.ok.inj decoded']
      exact congrArg Prod.snd same
    refine SortedMap.key_ne_of_lt before ?_
    cases name
    cases name'
    simp_all
  · refine (found_pairwise reading _ a w).imp_of_mem fun {r r'} member member' apart => ?_
    intro e number e' number' same
    have key {r : RowKey × Row} (member : r ∈ found reading (s.rows d.table) a w)
        {e : (RowKey × κ) × Int64} (number : e ∈ numbers decode r) :
        r.2.key = d.salting.salted e.1.1.encode := by
      obtain ⟨rows, family, qualifier, -, count⟩ := (mem_numbers (held_of_found member)).1 number
      obtain ⟨record, -, here, -, key, -⟩ :=
        origin_of_found keeps legible salts fits nonneg ordered bound member
          (present_of_count count)
      rw [key, here, rows]
    rw [key member number, key member' number', same] at apart
    exact apart rfl

/-- The numbers that are read count where the records do, and come to the same. -/
theorem agree_numbers (aggregated : Bool) : Agree Addition.place
    ((allNumbers s d.table decode reading a w).map (Addition.under (shape tally w aggregated)))
    ((entries (l.filter (Wanted a w ·.row))).map (Addition.under (shape tally w aggregated))) := by
  have numbers {e : (RowKey × κ) × Int64} :=
    mem_allNumbers (e := e) keeps legible salts fits nonneg ordered bound
  have records {e : (RowKey × κ) × Int64} (member : e ∈ entries (l.filter (Wanted a w ·.row))) :
      ∃ r ∈ l, Wanted a w r.row ∧ (r.key, r.value) = e := by
    obtain ⟨r, inside, same⟩ := List.mem_map.1 member
    obtain ⟨inside, here⟩ := List.mem_filter.1 inside
    exact ⟨r, inside, of_decide_eq_true here, same⟩
  refine agree_of_groups (fun _ _ => rfl)
    (allNumbers_distinct keeps legible salts fits nonneg ordered bound) ?_ ?_ ?_
  · intro e member
    obtain ⟨r, inside, key, here, count⟩ := numbers.1 member
    refine ⟨⟨(r.key, r.value), List.mem_map_of_mem (List.mem_filter.2 ⟨inside, ?_⟩), key⟩, ?_⟩
    · exact decide_eq_true here
    · have amount := keeps.amounts r inside
      rw [count] at amount
      rw [← key, filter_entries here, legible.shape_slot aggregated inside here]
      exact amount
  · intro e member absent
    obtain ⟨r, inside, here, rfl⟩ := records member
    have amount := keeps.amounts r inside
    rw [filter_entries here, legible.shape_slot aggregated inside here]
    cases count : s.count? (d.place r.row r.column) with
    | none =>
      rw [count] at amount
      exact amount.symm
    | some n => exact absurd rfl (absent (r.key, n) (numbers.2 ⟨r, inside, rfl, here, count⟩))
  · intro e member
    obtain ⟨r, inside, here, rfl⟩ := records member
    obtain ⟨r', inside', rows, edges, ends, some_⟩ := legible.beside r inside
    have amount := keeps.amounts r' inside'
    cases count : s.count? (d.place r'.row r'.column) with
    | none =>
      rw [count] at amount
      exact absurd amount.symm some_
    | some n =>
      exact ⟨(r'.key, n), numbers.2 ⟨r', inside', rfl, rows ▸ here, count⟩,
        legible.place_shape aggregated rows edges ends⟩

/-- What is read of an application are the links that its records make when they are counted one by
one. -/
theorem addAll_tallies (aggregated : Bool) :
    Links.addAll .empty ((found reading (s.rows d.table) a w).flatMap
        (tallies decode tally w aggregated)) =
      Links.ofAdditions ((l.filter (Wanted a w ·.row)).map fun r =>
        (tally r.column (linkTime w aggregated r.row) r.value).addition r.slot) := by
  have all : (found reading (s.rows d.table) a w).flatMap (tallies decode tally w aggregated) =
      (allNumbers s d.table decode reading a w).map
        fun e => tally e.1.2 (linkTime w aggregated e.1.1) e.2 := by
    simp only [allNumbers, List.map_flatMap, ← tallies_eq]
  have record {e : (RowKey × κ) × Int64} (member : e ∈ allNumbers s d.table decode reading a w) :
      ∃ r ∈ l, r.key = e.1 ∧ Wanted a w r.row := by
    obtain ⟨r, inside, key, here, -⟩ :=
      (mem_allNumbers keeps legible salts fits nonneg ordered bound).1 member
    exact ⟨r, inside, key, here⟩
  have left : Links.addAll .empty ((found reading (s.rows d.table) a w).flatMap
      (tallies decode tally w aggregated)) = Links.ofAdditions
        ((allNumbers s d.table decode reading a w).map
          (Addition.under (shape tally w aggregated))) := by
    rw [all, Links.addAll_eq _ (fun e => (shape tally w aggregated e.1).slot) fun e member => ?_]
    · refine congrArg _ (List.map_congr_left fun e member => ?_)
      obtain ⟨r, inside, key, here⟩ := record member
      rw [← key, legible.shape_slot aggregated inside here]
      exact (legible.under_shape aggregated inside here e.2).trans (by rw [key])
    · obtain ⟨r, inside, key, here⟩ := record member
      rw [← key, legible.shape_slot aggregated inside here]
      exact legible.slot r inside here _ _
  rw [left, ← legible.entries_under aggregated]
  exact (agree_numbers keeps legible salts fits nonneg ordered bound aggregated).links

end

end Query

end CallTelemetry.Topology
