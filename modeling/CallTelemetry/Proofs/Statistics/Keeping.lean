import CallTelemetry.Proofs.Int64
import CallTelemetry.Proofs.Pending.Completion
import CallTelemetry.Proofs.Statistics.Record

/-! Records that are written. When a writer that has a table to itself has nothing left to write, the
table keeps the records that it was told. Where what they come to is the number of a word, it is that
number which the table keeps. -/
namespace CallTelemetry

open Pending

/-- What a cell holds that holds a word. -/
theorem Store.Words.count?_eq {s : Store} (words : s.Words) (c : Cell) (fallback : Int64) :
    s.count? c = (s.cell? c).map fun bytes => counter (some bytes) fallback := by
  rw [count?]
  cases found : s.cell? c with
  | none => rfl
  | some bytes =>
    obtain ⟨x, rfl⟩ := words c bytes found
    simp [counter]

namespace Statistics

open Latency

variable {κ : Type}

namespace Record

def change (r : Record κ) : Change :=
  match r.slot with
  | .max => .raise r.value
  | _ => .add r.value

def mutation (encode : κ → Bytes) (r : Record κ) : Mutation :=
  ⟨⟨r.row.encode, true⟩, encode r.column, r.change⟩

/-- The kind of pending cells that wait to be written to a slot. -/
def kindOf : Slot → Flushing
  | .max => .maxima
  | _ => .counters

theorem kindOf_counter {slot : Slot} (counter : slot ≠ .max) : kindOf slot = .counters := by
  cases slot <;> first | rfl | exact absurd rfl counter

theorem kind_mutation (encode : κ → Bytes) (r : Record κ) :
    (r.mutation encode).kind = kindOf r.slot := by
  cases slot : r.slot <;> simp [mutation, Mutation.kind, change, kindOf, slot]

theorem value_mutation (encode : κ → Bytes) (r : Record κ) :
    (r.mutation encode).value = r.value := by
  cases slot : r.slot <;> simp [mutation, Mutation.value, change, slot]

end Record

/-- Whether a writer writes to a table. -/
structure WritesTo (w : BatchedWriter) (d : Destination κ) : Prop where
  table : w.table = d.table
  family : w.family = d.family
  salting : w.salting = d.salting

theorem WritesTo.place_eq {w : BatchedWriter} {d : Destination κ} (writes : WritesTo w d)
    (r : Record κ) :
    (w.target (r.mutation d.encode)).salted w.salting = d.place r.row r.column := by
  rw [BatchedWriter.target, BatchedWriter.cell, writes.table, writes.family, writes.salting]
  rfl

/-- A mutation that is meant for a cell of the table is that of a record. -/
theorem origin_of_mutate {ι : Type} [DecidableEq ι] {s : Writing ι} {i : ι} {d : Destination κ}
    (writes : WritesTo (s.writers i) d) (sole : ∀ j, (s.writers j).table = d.table → j = i)
    {actions : List (Writing.Action ι)} {l : List (Record κ)}
    (told : (Writing.told i actions).Perm (l.map (·.mutation d.encode))) {j : ι} {m : Mutation}
    (member : .mutate j m ∈ actions) {c : Cell} (table : c.table = d.table)
    (here : s.place j ((s.writers j).target m) = c) :
    j = i ∧ ∃ r ∈ l, r.mutation d.encode = m ∧ d.place r.row r.column = c := by
  have tables : (s.place j ((s.writers j).target m)).table = (s.writers j).table := rfl
  obtain rfl : j = i := sole j (by rw [← tables, here, table])
  obtain ⟨r, inside, rfl⟩ := List.mem_map.1 (told.mem_iff.1 (Writing.mem_told member))
  exact ⟨rfl, r, inside, rfl, (writes.place_eq r).symm.trans here⟩

variable [DecidableEq κ]

/-- What the records of one cell add, or raise it to. -/
def values (l : List (Record κ)) (key : RowKey × κ) : List Int64 :=
  (l.filter fun r => r.key = key).map (·.value)

theorem recorded_eq (l : List (Record κ)) (key : RowKey × κ) (slot : Slot) :
    recorded l key slot = slot.amount (values l key) := by
  rw [recorded, entries, values, List.filter_map, List.map_map]
  rfl

/-- What records come to in one cell as a number, which does not wrap around. -/
def unwrapped (l : List (Record κ)) (key : RowKey × κ) (slot : Slot) : Int :=
  slot.amount ((values l key).map Int64.toInt)

/-- Whether what is recorded in every cell fits in a word. -/
def Bounded (l : List (Record κ)) : Prop :=
  ∀ r ∈ l, Representable (unwrapped l r.key r.slot)

instance (l : List (Record κ)) : Decidable (Bounded l) :=
  inferInstanceAs (Decidable (∀ r ∈ l, Representable _))

/-- Whether every cell of a table is that of a record. -/
def Originates (s : Store) (d : Destination κ) (l : List (Record κ)) : Prop :=
  ∀ c : Cell, c.table = d.table → s.cell? c ≠ none → ∃ r ∈ l, d.place r.row r.column = c

/-- Whether records that share a cell are of one row, column and slot. -/
structure Distinct (d : Destination κ) (l : List (Record κ)) : Prop where
  key : ∀ r ∈ l, ∀ r' ∈ l, d.place r.row r.column = d.place r'.row r'.column → r.key = r'.key
  slot : ∀ r ∈ l, ∀ r' ∈ l, r.key = r'.key → r.slot = r'.slot

/-- The changes of a cell are those of its records. -/
theorem WritesTo.deltas_eq {w : BatchedWriter} {d : Destination κ} (writes : WritesTo w d)
    {l : List (Record κ)} (distinct : Distinct d l) {r : Record κ} (member : r ∈ l) :
    deltas (w.target (r.mutation d.encode)) ((l.map (·.mutation d.encode)).flatMap
      fun m => w.changes m (Record.kindOf r.slot)) = values l r.key := by
  have part (l' : List (Record κ)) (inside : ∀ r' ∈ l', r' ∈ l) :
      deltas (w.target (r.mutation d.encode)) ((l'.map (·.mutation d.encode)).flatMap
        fun m => w.changes m (Record.kindOf r.slot)) = values l' r.key := by
    induction l' with
    | nil => rfl
    | cons r' l' ih =>
      have member' := inside r' List.mem_cons_self
      rw [List.map_cons, List.flatMap_cons, deltas_append,
        ih fun r'' member'' => inside r'' (List.mem_cons_of_mem _ member''), BatchedWriter.changes,
        r'.kind_mutation]
      by_cases same : r'.key = r.key
      · have slots := distinct.slot r' member' r member same
        obtain ⟨rows, columns⟩ := Prod.mk.inj same
        have cells : w.target (r'.mutation d.encode) = w.target (r.mutation d.encode) := by
          simp only [BatchedWriter.target, Record.mutation, rows, columns]
        simp [slots, cells, values, same, deltas_cons, r'.value_mutation]
      · have apart : w.target (r'.mutation d.encode) ≠ w.target (r.mutation d.encode) := by
          intro cells
          refine same (distinct.key r' member' r member ?_)
          rw [← writes.place_eq r', ← writes.place_eq r, cells]
        have none : deltas (w.target (r.mutation d.encode))
            (if Record.kindOf r'.slot = Record.kindOf r.slot then
              [(w.target (r'.mutation d.encode), (r'.mutation d.encode).value)] else []) = [] := by
          split <;> simp [deltas_cons, apart]
        simp [none, values, same]
  exact part l fun _ inside => inside

theorem amount_of_counter {ν : Type} [Add ν] [Max ν] [Zero ν] {slot : Slot} (counter : slot ≠ .max)
    (l : List ν) : slot.amount l = l.sum := by
  cases slot <;> first | rfl | exact absurd rfl counter

/-- What words come to that a missing one is raised to is the largest of them. -/
theorem peak_eq_max? (l : List Int64) :
    l.foldr (fun value => Option.merge max (some value)) none = l.max? := by
  induction l with
  | nil => rfl
  | cons x l ih =>
    rw [List.foldr_cons, List.max?_cons, ih]
    cases l.max? <;> rfl

theorem toInt_max? (l : List Int64) : l.max?.map Int64.toInt = (l.map Int64.toInt).max? := by
  induction l with
  | nil => rfl
  | cons x l ih =>
    rw [List.map_cons, List.max?_cons, List.max?_cons, ← ih]
    cases l.max? with
    | none => rfl
    | some y => exact congrArg some (toInt_max x y)

/-- The largest of values, where it counts, is what they come to. -/
theorem amount_max? (l : List Int64) : Slot.max.amount l.max?.toList = Slot.max.amount l := by
  induction l with
  | nil => rfl
  | cons x l ih =>
    rw [List.max?_cons, Slot.amount_cons, ← ih]
    cases l.max? with
    | none => rfl
    | some y => exact max_assoc _ _ _

/-- What words come to is what their numbers come to, if that is the number of a word. -/
theorem toInt_amount {slot : Slot} {l : List Int64}
    (fits : Representable (slot.amount (l.map Int64.toInt))) :
    (slot.amount l).toInt = slot.amount (l.map Int64.toInt) := by
  by_cases top : slot = .max
  · subst top
    clear fits
    induction l with
    | nil => rfl
    | cons x l ih =>
      rw [List.map_cons, Slot.amount_cons, Slot.amount_cons, ← ih]
      exact toInt_max x _
  · rw [amount_of_counter top] at fits ⊢
    rw [amount_of_counter top, toInt_sum fits]

/-- A word comes to its number. -/
theorem amount_toInt (slot : Slot) (word : Option Int64) :
    slot.amount (word.map Int64.toInt).toList = (slot.amount word.toList).toInt := by
  cases word with
  | none => rfl
  | some x =>
    cases slot
    case max => exact (toInt_max x 0).symm
    all_goals exact (Int.add_zero _).trans (congrArg Int64.toInt (Int64.add_zero x)).symm

/-- The number of a cell is what its records come to, if that fits in a word. -/
theorem Keeps.toInt_amounts {s : Store} {d : Destination κ} {l : List (Record κ)}
    (keeps : Keeps s d l) {r : Record κ} (member : r ∈ l)
    (fits : Representable (unwrapped l r.key r.slot)) :
    r.slot.amount ((s.count? (d.place r.row r.column)).map Int64.toInt).toList =
      unwrapped l r.key r.slot := by
  rw [amount_toInt, keeps.amounts r member, recorded_eq, toInt_amount fits]
  rfl

section

variable {ι : Type} [DecidableEq ι] {s : Writing ι} (idle : s.Idle) (new : s.store = .empty) {i : ι}
  {d : Destination κ} (writes : WritesTo (s.writers i) d)
  (sole : ∀ j, (s.writers j).table = d.table → j = i) {actions : List (Writing.Action ι)}
  (quiet : ∀ a ∈ actions, a.Quiet) {l : List (Record κ)}
  (told : (Writing.told i actions).Perm (l.map (·.mutation d.encode)))

include idle new writes sole quiet told

theorem stored_eq (room : s.admits actions) (distinct : Distinct d l)
    (empty : ∀ kind, ((s.run actions).writers i).pending kind = .empty)
    (done : (s.run actions).deliveries = []) {r : Record κ} (member : r ∈ l) (g : Ledger)
    (kind : g.kind = Record.kindOf r.slot) :
    g.stored ((s.run actions).store.cell? (d.place r.row r.column)) = g.join (g.stored none)
      ((values l r.key).foldr (fun value => g.join (g.worth value)) g.nothing) := by
  have place : s.place i ((s.writers i).target (r.mutation d.encode)) = d.place r.row r.column :=
    writes.place_eq r
  have spares : ∀ a ∈ actions, s.Spares (some (i, g.kind)) (d.place r.row r.column) a := by
    intro a inside
    cases a with
    | mutate j m =>
      intro here
      obtain ⟨rfl, r', member', rfl, same⟩ := origin_of_mutate writes sole told inside rfl here
      rw [kind, r'.kind_mutation,
        distinct.slot r' member' r member (distinct.key r' member' r member same)]
    | carryOut r => exact absurd (quiet _ inside) id
    | _ => trivial
  have stored := Writing.stored_of_done g idle (by rw [new]; rfl) quiet (place ▸ spares)
    (by rw [empty, SortedMap.get?_empty]) done
  have changes := told.flatMap_right fun m => (s.writers i).changes m g.kind
  rw [Writing.along_accepted room, g.total_perm changes, Tally.total, kind,
    writes.deltas_eq distinct member, place, new] at stored
  exact stored

omit writes sole told in
theorem words_of_done : (s.run actions).store.Words := by
  refine Writing.words_run idle.sound ?_ quiet
  rw [new]
  intro c bytes found
  cases found

/-- When all is written, a cell that is raised holds the largest of what was recorded in it. -/
theorem peak_of_done (room : s.admits actions) (distinct : Distinct d l)
    (empty : ∀ kind, ((s.run actions).writers i).pending kind = .empty)
    (done : (s.run actions).deliveries = []) {r : Record κ} (member : r ∈ l)
    (top : r.slot = .max) : (s.run actions).store.count? (d.place r.row r.column) =
      (values l r.key).max? := by
  have stored := stored_eq idle new writes sole quiet told room distinct empty done member .maxima
    (by rw [top]; rfl)
  rw [(words_of_done idle new quiet).count?_eq _ Int64.minValue, ← peak_eq_max?]
  exact stored.trans Option.merge_none_left

/-- When all is written, a cell holds what its records come to. -/
theorem amount_of_done (room : s.admits actions) (distinct : Distinct d l)
    (empty : ∀ kind, ((s.run actions).writers i).pending kind = .empty)
    (done : (s.run actions).deliveries = []) {r : Record κ} (member : r ∈ l) :
    r.slot.amount ((s.run actions).store.count? (d.place r.row r.column)).toList =
      recorded l r.key r.slot := by
  by_cases top : r.slot = .max
  · rw [peak_of_done idle new writes sole quiet told room distinct empty done member top,
      recorded_eq, top, amount_max?]
  · have sum := stored_eq idle new writes sole quiet told room distinct empty done member .counters
      (Record.kindOf_counter top).symm
    have total : Store.counter ((s.run actions).store.cell? (d.place r.row r.column)) 0 =
        (values l r.key).sum := sum.trans (Int64.zero_add _)
    rw [recorded_eq, amount_of_counter top, amount_of_counter top, ← total,
      (words_of_done idle new quiet).count?_eq _ 0]
    cases (s.run actions).store.cell? (d.place r.row r.column) with
    | none => rfl
    | some bytes => exact Int64.add_zero _

omit [DecidableEq κ] in
/-- What the table of a writer has is recorded there. -/
theorem origin_of_done : Originates (s.run actions).store d l := by
  intro c table present
  by_cases told_ : ∃ r ∈ l, d.place r.row r.column = c
  · exact told_
  · refine absurd ?_ present
    have spares : ∀ a ∈ actions, s.Spares none c a := by
      intro a inside
      cases a with
      | mutate j m =>
        intro here
        obtain ⟨-, r, member, -, same⟩ := origin_of_mutate writes sole told inside table here
        exact absurd ⟨r, member, same⟩ told_
      | carryOut r => exact absurd (quiet _ inside) id
      | _ => trivial
    rw [Writing.cell?_run (idle.guarded spares), new]
    rfl

/-- When all is written, the table keeps what was recorded. -/
theorem keeps_of_done (room : s.admits actions) (distinct : Distinct d l)
    (empty : ∀ kind, ((s.run actions).writers i).pending kind = .empty)
    (done : (s.run actions).deliveries = []) : Keeps (s.run actions).store d l where
  origin := origin_of_done idle new writes sole quiet told
  amounts _ member :=
    amount_of_done idle new writes sole quiet told room distinct empty done member

end

end Statistics

end CallTelemetry
