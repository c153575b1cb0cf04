import CallTelemetry.Monitor.Lookup
import CallTelemetry.Proofs.Metadata.Codec
import CallTelemetry.Proofs.Pending.Requests

/-! Metadata that is registered is looked up. Under a key there is, of each kind, the value that was
registered last, or nothing. A registration that fails, or one of another kind or under another key,
changes no answer. -/
namespace CallTelemetry

theorem Store.get?_updateRow (s : Store) (table table' : TableName) (row row' : Bytes)
    (f : Cells → Cells) : ((s.updateRow table row f).rows table').get? row' =
      if table' = table ∧ row' = row then some (f ((s.rows table).getD row .empty))
      else (s.rows table').get? row' := by
  simp only [rows, updateRow, SortedMap.getD, SortedMap.get?_update]
  by_cases inTable : table' = table
  · simp [inTable, SortedMap.get?_update, SortedMap.getD]
  · simp [inTable]

namespace Intake.Collector

variable {c : Collector} {key : Metadata.Key}

theorem register_of_error {e : RowError} (salted : key.salted c.salting = .error e)
    (f : ColumnFamily) (payload : Bytes) : c.register f key payload = (.error (.row e), c) := by
  simp [register, salted]

theorem register_of_ok {row : Bytes} (salted : key.salted c.salting = .ok row)
    (f : ColumnFamily) (payload : Bytes) : c.register f key payload =
      let (outcome, timeline) := c.timeline.request
        (.put (f.tableIn c.space) row ⟨f.family, Metadata.signatureQualifier⟩ payload)
      (outcome.mapError .store, { c with timeline }) := by
  simp [register, salted]

theorem register_alone (alone : c.timeline.events = []) {row : Bytes}
    (salted : key.salted c.salting = .ok row) (f : ColumnFamily) (payload : Bytes) :
    ∃ now, c.register f key payload =
      let (outcome, store) := c.timeline.store.arrive.carryOut
        (.put (f.tableIn c.space) row ⟨f.family, Metadata.signatureQualifier⟩ payload)
      (outcome.mapError .store, { c with timeline := { c.timeline with now, store } }) := by
  obtain ⟨now, carried⟩ := Timeline.request_alone alone
    (.put (f.tableIn c.space) row ⟨f.family, Metadata.signatureQualifier⟩ payload)
  exact ⟨now, by rw [register_of_ok salted, carried]⟩

end Intake.Collector

namespace Metadata

open Intake

inductive Kind where
  | api
  | string
  | sql
  deriving DecidableEq

namespace Kind

def Value : Kind → Type
  | api => ApiSignature
  | string => String
  | sql => String

def family : Kind → ColumnFamily
  | api => .apiMetadata
  | string => .stringMetadata
  | sql => .sqlMetadata

def encode : (kind : Kind) → kind.Value → Bytes
  | api => ApiSignature.encode
  | string => textPayload
  | sql => textPayload

def reader : (kind : Kind) → Reader kind.Value
  | api => ApiSignature.reader
  | string => Reader.textOrEmpty
  | sql => Reader.textOrEmpty

/-- Whether the lengths of the texts of a value can be written before them. -/
def Sound : (kind : Kind) → kind.Value → Prop
  | api => ApiSignature.Sound
  | string => Statistics.Writable
  | sql => Statistics.Writable

def lookUp : (kind : Kind) → Key → Monitor.Reading Monitor.LookupError (List (Entry kind.Value))
  | api => Monitor.apiMetadata
  | string => Monitor.stringMetadata
  | sql => Monitor.sqlMetadata

/-- What a monitor answers who looks a key up. -/
def answer (kind : Kind) (key : Key) (m : Monitor) :
    Except Monitor.LookupError (List (Entry kind.Value)) :=
  ((kind.lookUp key).run.run m).1

theorem lookUp_eq (kind : Kind) (key : Key) :
    kind.lookUp key = Monitor.lookUp kind.family (entries kind.reader) key := by
  cases kind <;> rfl

theorem reading_encode {kind : Kind} {v : kind.Value} (sound : kind.Sound v) :
    RowError.reading kind.reader (kind.encode v) = .ok v := by
  cases kind with
  | api => exact ApiSignature.reading_encode sound
  | string => exact (Reader.reads_textOrEmpty sound).whole
  | sql => exact (Reader.reads_textOrEmpty sound).whole

/-- Every kind has a table to itself. -/
theorem tableIn_injective {kind kind' : Kind} {space : String}
    (same : kind.family.tableIn space = kind'.family.tableIn space) : kind = kind' := by
  have tables := (String.append_right_inj _).1 (TableName.mk.inj same)
  cases kind <;> cases kind' <;> first | rfl | exact absurd tables (by decide)

/-- The only cell of a row. -/
def name (kind : Kind) : CellName := ⟨kind.family.family, signatureQualifier⟩

/-- The row of a value. -/
def cells (kind : Kind) (v : kind.Value) : Cells := SortedMap.empty.insert kind.name (kind.encode v)

/-- A value is written over the one before. -/
theorem insert_cells (kind : Kind) (told : Option kind.Value) (v : kind.Value) :
    ((told.map kind.cells).getD .empty).insert kind.name (kind.encode v) = kind.cells v := by
  cases told with
  | none => rfl
  | some old =>
    refine SortedMap.ext_get? fun name => ?_
    simp only [cells, Option.map_some, Option.getD_some, SortedMap.get?_insert]
    split <;> rfl

end Kind

/-- A registration, and the store that it meets: how many requests are about to fail, and how long
each of them takes. -/
structure Registration where
  kind : Kind
  entry : Entry kind.Value
  dueFailures : Nat
  latency : Option Nat

namespace Registration

/-- A collector that meets the store in this state. -/
def meet (r : Registration) (c : Collector) : Collector :=
  let store := { c.timeline.store with dueFailures := r.dueFailures, latency := r.latency }
  { c with timeline := { c.timeline with store } }

def make (r : Registration) (c : Collector) : Except IntakeError Unit × Collector :=
  (r.meet c).register r.kind.family r.entry.key (r.kind.encode r.entry.value)

/-- Metadata that is taken in is registered with the store as it is. -/
theorem take_metadata (c : Collector) (a : Attribute) :
    let as (kind : Kind) (entry : Entry kind.Value) : Registration :=
      ⟨kind, entry, c.timeline.store.dueFailures, c.timeline.store.latency⟩
    (∀ m, c.take a (.api m) = (as .api (apiMetadata a m)).make c) ∧
      (∀ m, c.take a (.string m) = (as .string (stringMetadata a m)).make c) ∧
      ∀ m, c.take a (.sql m) = (as .sql (sqlMetadata a m)).make c :=
  ⟨fun _ => rfl, fun _ => rfl, fun _ => rfl⟩

/-- Whether a registration is carried out: its key fits, and no failure is due. -/
def Succeeds (r : Registration) : Prop :=
  r.entry.key.agentId.utf8ByteSize ≤ Identifier.maxLength ∧ r.dueFailures = 0

instance (r : Registration) : Decidable r.Succeeds := inferInstanceAs (Decidable (_ ∧ _))

/-- What a registration tells of a key. -/
def value? (r : Registration) (kind : Kind) (key : Key) : Option kind.Value :=
  if same : r.kind = kind then if r.entry.key = key then some (same ▸ r.entry.value) else none
  else none

def makeAll (c : Collector) (l : List Registration) : Collector := l.foldl (fun c r => (r.make c).2) c

/-- Those that did not fail. -/
def made (c : Collector) : List Registration → List Registration
  | [] => []
  | r :: rest =>
    match r.make c with
    | (.ok _, c) => r :: made c rest
    | (.error _, c) => made c rest

/-- What was registered last under a key. -/
def last? (l : List Registration) (kind : Kind) (key : Key) : Option kind.Value :=
  (l.filterMap (·.value? kind key)).getLast?

theorem value?_self (r : Registration) : r.value? r.kind r.entry.key = some r.entry.value := by
  simp [value?]

theorem value?_eq_none {r : Registration} {kind : Kind} {key : Key}
    (apart : r.kind ≠ kind ∨ r.entry.key ≠ key) : r.value? kind key = none := by
  unfold value?
  split
  next same =>
    rcases apart with apart | apart
    · exact absurd same apart
    · rw [if_neg apart]
  next => rfl

theorem last?_cons (r : Registration) (l : List Registration) (kind : Kind) (key : Key) :
    last? (r :: l) kind key = (last? l kind key).or (r.value? kind key) := by
  unfold last?
  cases told : r.value? kind key with
  | none => simp [told]
  | some v =>
    rw [List.filterMap_cons, told, List.getLast?_cons]
    cases (l.filterMap (·.value? kind key)).getLast? <;> rfl

/-- What fails, or tells nothing of a key, might as well be left out. -/
theorem last?_without {r : Registration} {kind : Kind} {key : Key}
    (silent : ¬r.Succeeds ∨ r.kind ≠ kind ∨ r.entry.key ≠ key) (before rest : List Registration) :
    last? ((before ++ r :: rest).filter Succeeds) kind key =
      last? ((before ++ rest).filter Succeeds) kind key := by
  unfold last?
  rw [List.filter_append, List.filter_append, List.filterMap_append, List.filterMap_append]
  by_cases succeeds : r.Succeeds
  · have none : r.value? kind key = none :=
      value?_eq_none (silent.resolve_left (not_not_intro succeeds))
    rw [List.filter_cons_of_pos (by simpa using succeeds), List.filterMap_cons, none]
  · rw [List.filter_cons_of_neg (by simpa using succeeds)]

section

variable {c : Collector} (alone : c.timeline.events = [])

include alone

/-- A registration fails and leaves the tables as they were, or it writes its cell. -/
theorem make_cases (r : Registration) :
    (r.make c).2.timeline.events = [] ∧ (r.make c).2.space = c.space ∧
      (r.make c).2.salting = c.salting ∧
      ((¬r.Succeeds ∧ (∃ e, (r.make c).1 = .error e) ∧
          (r.make c).2.timeline.store.tables = c.timeline.store.tables) ∨
        (r.Succeeds ∧ (r.make c).1 = .ok ()) ∧ ∃ row, r.entry.key.salted c.salting = .ok row ∧
          (r.make c).2.timeline.store.tables = (c.timeline.store.updateRow
            (r.kind.family.tableIn c.space) row
              fun cells => cells.insert r.kind.name (r.kind.encode r.entry.value)).tables) := by
  unfold make Succeeds
  by_cases short : r.entry.key.agentId.utf8ByteSize ≤ Identifier.maxLength
  · obtain ⟨row, salted⟩ := Key.salted_of_short (s := c.salting) short
    obtain ⟨now, registered⟩ := Collector.register_alone (c := r.meet c) alone salted r.kind.family
      (r.kind.encode r.entry.value)
    rw [registered]
    refine ⟨alone, rfl, rfl, ?_⟩
    unfold meet
    cases r.dueFailures with
    | zero => exact .inr ⟨⟨⟨short, rfl⟩, rfl⟩, row, salted, rfl⟩
    | succ due => exact .inl ⟨by simp, ⟨_, rfl⟩, rfl⟩
  · have salted := Key.salted_of_long (s := c.salting) (Nat.lt_of_not_le short)
    rw [Collector.register_of_error (c := r.meet c) salted]
    exact ⟨alone, rfl, rfl, .inl ⟨fun succeeds => short succeeds.1, ⟨_, rfl⟩, rfl⟩⟩

theorem make_eq_ok_iff (r : Registration) : (r.make c).1 = .ok () ↔ r.Succeeds := by
  obtain ⟨-, -, -, ⟨fails, ⟨e, failed⟩, -⟩ | ⟨⟨succeeds, answered⟩, -⟩⟩ := make_cases alone r
  · rw [failed]
    exact ⟨nofun, fun succeeds => absurd succeeds fails⟩
  · exact ⟨fun _ => succeeds, fun _ => answered⟩

theorem makeAll_keeps (l : List Registration) :
    (makeAll c l).timeline.events = [] ∧ (makeAll c l).salting = c.salting := by
  induction l generalizing c with
  | nil => exact ⟨alone, rfl⟩
  | cons r l ih =>
    obtain ⟨alone', -, salting, -⟩ := make_cases alone r
    obtain ⟨still, same⟩ := ih alone'
    exact ⟨still, same.trans salting⟩

theorem made_eq (l : List Registration) : made c l = l.filter Succeeds := by
  induction l generalizing c with
  | nil => rfl
  | cons r l ih =>
    have rest := ih (make_cases alone r).1
    have outcome := make_eq_ok_iff alone r
    rw [made]
    cases result : r.make c with
    | mk first c' =>
      rw [result] at rest outcome
      cases first with
      | error e =>
        have fails : ¬r.Succeeds := fun succeeds => by cases outcome.2 succeeds
        rw [List.filter_cons_of_neg (by simpa using fails)]
        exact rest
      | ok =>
        have succeeds : r.Succeeds := outcome.1 rfl
        rw [List.filter_cons_of_pos (by simpa using succeeds)]
        exact congrArg _ rest

end

/-- The row of a key, after registrations that told last what is given. -/
structure Shows (c : Collector) (kind : Kind) (key : Key) (told : Option kind.Value) : Prop where
  alone : c.timeline.events = []
  row : ∀ row, key.salted c.salting = .ok row →
    (c.timeline.store.rows (kind.family.tableIn c.space)).get? row = told.map kind.cells

theorem shows_make {c : Collector} {kind : Kind} {key : Key} {told : Option kind.Value}
    (shows : Shows c kind key told) (fits : Identifier.Fits key.agentId) {r : Registration}
    (trimmed : r.entry.key.agentId.toList.getLast? ≠ some '\x00') :
    Shows (r.make c).2 kind key
      (match (r.make c).1 with
        | .ok _ => (r.value? kind key).or told
        | .error _ => told) := by
  obtain ⟨alone, space, salting, outcome⟩ := make_cases shows.alone r
  refine ⟨alone, fun row salted => ?_⟩
  rw [salting] at salted
  have before := shows.row row salted
  rcases outcome with ⟨-, ⟨e, failed⟩, tables⟩ | ⟨⟨succeeds, answered⟩, row', salted', tables⟩
  · rw [failed, space, Store.rows, tables]
    exact before
  · have fits' : Identifier.Fits r.entry.key.agentId :=
      ⟨succeeds.1, mt Bytes.getLast?_ofText trimmed⟩
    rw [answered, space, Store.rows, tables, ← Store.rows, Store.get?_updateRow]
    by_cases same : r.kind = kind ∧ r.entry.key = key
    · obtain ⟨rfl, rfl⟩ := same
      obtain rfl : row = row' := Except.ok.inj (salted.symm.trans salted')
      rw [if_pos ⟨rfl, rfl⟩, value?_self, SortedMap.getD, before, Kind.insert_cells]
      rfl
    · have apart : ¬(kind.family.tableIn c.space = r.kind.family.tableIn c.space ∧ row = row') := by
        rintro ⟨table, rfl⟩
        exact same ⟨(Kind.tableIn_injective table).symm, Key.salted_injective fits' fits salted' salted⟩
      rw [if_neg apart, value?_eq_none (Decidable.not_and_iff_or_not.1 same)]
      exact before

/-- After registrations of all sorts the row of a key holds what the last of its own told. -/
theorem shows_makeAll {l : List Registration} {c : Collector} {kind : Kind} {key : Key}
    {told : Option kind.Value} (shows : Shows c kind key told)
    (fits : Identifier.Fits key.agentId)
    (trimmed : ∀ r ∈ l, r.entry.key.agentId.toList.getLast? ≠ some '\x00') :
    Shows (makeAll c l) kind key ((last? (made c l) kind key).or told) := by
  induction l generalizing c told with
  | nil => exact shows
  | cons r l ih =>
    have first := shows_make shows fits (trimmed r List.mem_cons_self)
    have rest := ih first fun r' member => trimmed r' (List.mem_cons_of_mem r member)
    rw [made, makeAll, List.foldl_cons]
    cases made : r.make c with
    | mk outcome c' =>
      rw [made] at rest
      cases outcome with
      | error e => exact rest
      | ok =>
        dsimp only at rest ⊢
        rw [last?_cons, Option.or_assoc]
        exact rest

end Registration

end Metadata

end CallTelemetry
