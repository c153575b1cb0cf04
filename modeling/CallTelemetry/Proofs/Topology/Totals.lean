import Mathlib
import CallTelemetry.Proofs.Statistics.Keeping
import CallTelemetry.Proofs.Topology.Reading

/-! Totals of rows. The columns in which a row keeps a slot come together to what the records of that
row and slot come to, however these are spread over the columns. -/
namespace CallTelemetry

/-- Numbers have the same maximum as others if neither has one that exceeds all of the other. -/
theorem max?_eq_of_reaches {l l' : List Int} (below : ∀ a ∈ l, ∃ b ∈ l', a ≤ b)
    (above : ∀ b ∈ l', ∃ a ∈ l, b ≤ a) : l.max? = l'.max? := by
  cases most : l.max? with
  | none =>
    rw [List.max?_eq_none_iff] at most
    subst most
    refine (List.max?_eq_none_iff.2 (List.eq_nil_iff_forall_not_mem.2 fun b member => ?_)).symm
    obtain ⟨a, inside, -⟩ := above b member
    exact List.not_mem_nil inside
  | some a =>
    obtain ⟨inside, bound⟩ := List.max?_eq_some_iff.1 most
    have bound' (b : Int) (member : b ∈ l') : b ≤ a := by
      obtain ⟨a', inside', le⟩ := above b member
      exact Int.le_trans le (bound a' inside')
    obtain ⟨b, member, le⟩ := below a inside
    obtain rfl := Int.le_antisymm le (bound' b member)
    exact (List.max?_eq_some_iff.2 ⟨member, bound'⟩).symm

/-- The total of the numbers of a slot: the largest of times, and the sum of all others. -/
def Latency.Slot.total : Slot → List Int → Option Int
  | .max, l => l.max?
  | _, l => some l.sum

theorem Latency.Slot.total_of_counter {slot : Slot} (counter : slot ≠ .max) (l : List Int) :
    slot.total l = some (slot.amount l) := by
  cases slot <;> first | rfl | exact absurd rfl counter

namespace Topology.Query

open Latency Pending Statistics

/-- The columns of a row as they are stored, with their numbers. -/
def columns (s : Store) (table : TableName) (row : Bytes) : List (Bytes × Int) :=
  (((s.rows table).getD row .empty).entries.filterMap (cell? .ok)).map fun e => (e.1, e.2.toInt)

/-- The numbers of the columns of a row that are chosen. -/
def numbersOf (s : Store) (table : TableName) (row : Bytes) (chosen : Bytes → Bool) : List Int :=
  ((columns s table row).filter fun e => chosen e.1).map (·.2)

theorem mem_columns {s : Store} {table : TableName} {row : Bytes} {e : Bytes × Int} :
    e ∈ columns s table row ↔
      ∃ family, (s.count? ⟨table, row, family, e.1⟩).map Int64.toInt = some e.2 := by
  simp only [columns, List.mem_map, List.mem_filterMap, Option.map_eq_some_iff, Store.count?,
    Store.cell?, Option.bind_eq_some_iff]
  constructor
  · rintro ⟨⟨column, count⟩, ⟨⟨⟨family, qualifier⟩, bytes⟩, member, read⟩, rfl⟩
    obtain ⟨same, number⟩ := cell?_eq_some.1 read
    obtain rfl : qualifier = column := Except.ok.inj same
    exact ⟨family, count, ⟨bytes, SortedMap.mem_entries_iff.1 member, number⟩, rfl⟩
  · rintro ⟨family, count, ⟨bytes, here, number⟩, exact_⟩
    refine ⟨(e.1, count), ⟨(⟨family, e.1⟩, bytes), SortedMap.mem_entries_iff.2 here, ?_⟩, ?_⟩
    · exact cell?_eq_some.2 ⟨rfl, number⟩
    · rw [exact_]

variable {κ : Type} {s : Store} {d : Destination κ} {l : List (Record κ)} {row : Bytes} {slot : Slot}

/-- What records add in one slot of a row, or raise it to, in whatever columns. -/
def valuesIn (d : Destination κ) (l : List (Record κ)) (row : Bytes) (slot : Slot) : List Int64 :=
  (l.filter fun r => d.salting.salted r.row.encode = row ∧ r.slot = slot).map (·.value)

theorem mem_valuesIn {v : Int64} : v ∈ valuesIn d l row slot ↔
    ∃ r ∈ l, d.salting.salted r.row.encode = row ∧ r.slot = slot ∧ r.value = v := by
  simp [valuesIn, and_assoc]

section

variable (origin : Originates s d l)

include origin

theorem origin_of_column {e : Bytes × Int} (member : e ∈ columns s d.table row) :
    ∃ r ∈ l, d.salting.salted r.row.encode = row ∧ d.encode r.column = e.1 ∧
      (s.count? (d.place r.row r.column)).map Int64.toInt = some e.2 := by
  obtain ⟨family, number⟩ := mem_columns.1 member
  obtain ⟨_, count, -⟩ := Option.map_eq_some_iff.1 number
  obtain ⟨r, inside, place⟩ := origin _ rfl (present_of_count count)
  obtain ⟨-, rows, -, columns⟩ := Cell.mk.inj place
  exact ⟨r, inside, rows, columns, place ▸ number⟩

/-- All cells of a table are of one family, so no column of a row is there twice. -/
theorem columns_distinct : (columns s d.table row).Pairwise fun e e' => e.1 ≠ e'.1 := by
  have family {cell : CellName × Bytes}
      (member : cell ∈ ((s.rows d.table).getD row .empty).entries) : cell.1.family = d.family := by
    have present : s.cell? ⟨d.table, row, cell.1.family, cell.1.qualifier⟩ ≠ none := by
      simp [Store.cell?, SortedMap.mem_entries_iff.1 member]
    obtain ⟨r, -, place⟩ := origin _ rfl present
    obtain ⟨-, -, families, -⟩ := Cell.mk.inj place
    exact families.symm
  refine List.pairwise_map.2 (List.pairwise_filterMap.2
    (((s.rows d.table).getD row .empty).ascending.imp_of_mem ?_))
  intro cell cell' member member' before e read e' read' same
  have qualifier := Except.ok.inj (cell?_eq_some.1 read).1
  have qualifier' := Except.ok.inj (cell?_eq_some.1 read').1
  refine SortedMap.key_ne_of_lt before (?_ : cell.1 = cell'.1)
  rw [CellName.mk.injEq, family member, family member', qualifier, qualifier', same]
  exact ⟨rfl, rfl⟩

end

variable [DecidableEq κ]

/-- In a row, the records of a column that is chosen are those of one cell. -/
theorem values_of_column (distinct : Distinct d l) {chosen : Bytes → Bool} {r : Record κ}
    (member : r ∈ l) (here : d.salting.salted r.row.encode = row) (taken : chosen (d.encode r.column)) :
    ((((l.filter fun r => d.salting.salted r.row.encode = row ∧ chosen (d.encode r.column)).map
      fun r => (d.encode r.column, r.value.toInt)).filter fun e => e.1 = d.encode r.column).map
        (·.2)) = (values l r.key).map Int64.toInt := by
  rw [List.filter_map, List.filter_filter, List.map_map, values, List.map_map]
  refine congrArg _ (List.filter_congr fun r' member' => Bool.eq_iff_iff.2 ?_)
  simp only [Function.comp_apply, Bool.and_eq_true, decide_eq_true_eq]
  constructor
  · rintro ⟨column, row', -⟩
    refine distinct.key r' member' r member ?_
    rw [Destination.place, Destination.place, row', here, column]
  · intro same
    obtain ⟨rows, columns⟩ := Prod.mk.inj same
    exact ⟨by rw [columns], by rw [rows, here], by rw [columns]; exact taken⟩

/-- Chosen columns of a row come to what is recorded in them, if each of their cells does. -/
theorem amount_chosen (origin : Originates s d l) (distinct : Distinct d l) {chosen : Bytes → Bool}
    (amounts : ∀ r ∈ l, d.salting.salted r.row.encode = row → chosen (d.encode r.column) →
      slot.amount ((s.count? (d.place r.row r.column)).map Int64.toInt).toList =
        unwrapped l r.key slot) :
    slot.amount (numbersOf s d.table row chosen) = slot.amount ((l.filter fun r =>
      d.salting.salted r.row.encode = row ∧ chosen (d.encode r.column)).map (·.value.toInt)) := by
  let told := (l.filter fun r => d.salting.salted r.row.encode = row ∧ chosen (d.encode r.column)).map
    fun r => (d.encode r.column, r.value.toInt)
  have groups : slot.amount (numbersOf s d.table row chosen) = slot.amount (told.map (·.2)) := by
    refine slot.amount_of_groups ((columns_distinct origin).filter _) told (fun e member => ?_)
      fun e member absent => ?_
    · obtain ⟨member, taken⟩ := List.mem_filter.1 member
      obtain ⟨r, inside, here, column, count⟩ := origin_of_column origin member
      have taken : chosen (d.encode r.column) := column ▸ taken
      rw [← column, values_of_column distinct inside here taken, ← unwrapped,
        ← amounts r inside here taken, count]
      rfl
    · obtain ⟨r, inside, rfl⟩ := List.mem_map.1 member
      obtain ⟨inside, here⟩ := List.mem_filter.1 inside
      obtain ⟨here, taken⟩ := of_decide_eq_true here
      rw [values_of_column distinct inside here taken, ← unwrapped, ← amounts r inside here taken]
      cases count : (s.count? (d.place r.row r.column)).map Int64.toInt with
      | none => rfl
      | some n =>
        refine absurd rfl (absent (d.encode r.column, n) (List.mem_filter.2 ⟨?_, taken⟩))
        exact mem_columns.2 ⟨d.family, here ▸ count⟩
  rw [groups, List.map_map]
  rfl

theorem values_subset (distinct : Distinct d l) {r : Record κ} (member : r ∈ l)
    (here : d.salting.salted r.row.encode = row) (counts : r.slot = slot) :
    values l r.key ⊆ valuesIn d l row slot := by
  intro v listed
  obtain ⟨r', chosen, rfl⟩ := List.mem_map.1 listed
  obtain ⟨inside, same⟩ := List.mem_filter.1 chosen
  have same := of_decide_eq_true same
  refine mem_valuesIn.2 ⟨r', inside, ?_, (distinct.slot r' inside r member same).trans counts, rfl⟩
  rw [(Prod.mk.inj same).1, here]

variable (keeps : Keeps s d l) (distinct : Distinct d l) {chosen : Bytes → Bool}
  (choice : ∀ r ∈ l, d.salting.salted r.row.encode = row →
    (chosen (d.encode r.column) ↔ r.slot = slot))

include keeps choice

/-- The numbers that are chosen are those of the cells of a slot. -/
theorem mem_numbersOf {n : Int} : n ∈ numbersOf s d.table row chosen ↔
    ∃ r ∈ l, d.salting.salted r.row.encode = row ∧ r.slot = slot ∧
      (s.count? (d.place r.row r.column)).map Int64.toInt = some n := by
  rw [numbersOf, List.mem_map]
  constructor
  · rintro ⟨e, member, rfl⟩
    obtain ⟨member, taken⟩ := List.mem_filter.1 member
    obtain ⟨r, inside, here, column, count⟩ := origin_of_column keeps.origin member
    exact ⟨r, inside, here, (choice r inside here).1 (column ▸ taken), count⟩
  · rintro ⟨r, inside, here, counts, count⟩
    refine ⟨(d.encode r.column, n), List.mem_filter.2 ⟨?_, (choice r inside here).2 counts⟩, rfl⟩
    exact mem_columns.2 ⟨d.family, here ▸ count⟩

include distinct

/-- The columns of a row that keep a slot come to what is recorded there. -/
theorem amount_numbersOf (bounded : Bounded l) : slot.amount (numbersOf s d.table row chosen) =
    slot.amount ((valuesIn d l row slot).map Int64.toInt) := by
  have amounts (r : Record κ) (member : r ∈ l) (here : d.salting.salted r.row.encode = row)
      (taken : chosen (d.encode r.column)) :
      slot.amount ((s.count? (d.place r.row r.column)).map Int64.toInt).toList =
        unwrapped l r.key slot := by
    rw [← (choice r member here).1 taken]
    exact keeps.toInt_amounts member (bounded r member)
  rw [amount_chosen keeps.origin distinct amounts, valuesIn, List.map_map]
  refine congrArg (fun chosen => slot.amount (List.map _ chosen)) ?_
  refine List.filter_congr fun r member => decide_eq_decide.2 (and_congr_right ?_)
  exact choice r member

/-- Where every cell that is raised holds the largest value, the columns of a row that keep a slot
have the total of what is recorded there. -/
theorem total_numbersOf (bounded : Bounded l) (peaks : ∀ r ∈ l, r.slot = .max →
      s.count? (d.place r.row r.column) = (values l r.key).max?) :
    slot.total (numbersOf s d.table row chosen) =
      slot.total ((valuesIn d l row slot).map Int64.toInt) := by
  by_cases top : slot = .max
  case neg =>
    rw [slot.total_of_counter top, slot.total_of_counter top,
      amount_numbersOf keeps distinct choice bounded]
  subst top
  refine max?_eq_of_reaches (fun n member => ?_) fun n member => ?_
  · obtain ⟨r, inside, here, counts, count⟩ := (mem_numbersOf keeps choice).1 member
    rw [peaks r inside counts, toInt_max?] at count
    obtain ⟨v, listed, largest⟩ := List.mem_map.1 (List.max?_eq_some_iff.1 count).1
    have told := values_subset distinct inside here counts listed
    exact ⟨n, List.mem_map.2 ⟨v, told, largest⟩, Int.le_refl n⟩
  · obtain ⟨v, told, rfl⟩ := List.mem_map.1 member
    obtain ⟨r, inside, here, counts, rfl⟩ := mem_valuesIn.1 told
    have listed : r.value.toInt ∈ (values l r.key).map Int64.toInt :=
      List.mem_map_of_mem (List.mem_map_of_mem (List.mem_filter.2 ⟨inside, decide_eq_true rfl⟩))
    obtain ⟨m, most⟩ := Option.isSome_iff_exists.1 (List.isSome_max?_of_mem listed)
    have count := (congrArg (Option.map Int64.toInt) (peaks r inside counts)).trans
      ((toInt_max? _).trans most)
    exact ⟨m, (mem_numbersOf keeps choice).2 ⟨r, inside, here, counts, count⟩,
      (List.max?_eq_some_iff.1 most).2 _ listed⟩

end Topology.Query

end CallTelemetry
