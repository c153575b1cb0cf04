import CallTelemetry.Proofs.Statistics.Scanning
import CallTelemetry.Proofs.TimeWindow
import CallTelemetry.Topology.Query

/-! The rows of an application. A reader that uses as many salts as the writer, or more, finds each
row of the minutes it asks for once, and no others. -/
namespace CallTelemetry.Topology.Query

open Statistics

/-- Whether a row is one of a minute that is asked for. -/
def Wanted (a : Application) (w : TimeWindow) (k : RowKey) : Prop :=
  k.application = a.name ∧ k.type = a.type.code ∧ timeSlot w.range.first ≤ k.slot ∧
    k.slot ≤ timeSlot w.range.last

theorem rowKey?_salted {k : RowKey} (sound : k.Sound) (salting : Salting) (cells : Cells) :
    rowKey? ⟨salting.salted k.encode, cells⟩ = some k := by
  have read : (RowError.unsalting (salting.salted k.encode) >>= RowKey.decode) = .ok k :=
    RowKey.decode_encode sound
  rw [rowKey?, read]
  rfl

/-- From the first minute on, no time wraps around. -/
theorem linkTime_eq {w : TimeWindow} (nonneg : 0 ≤ w.range.first) (bound : w.range.first ≤ lastMillis)
    (aggregated : Bool) {k : RowKey} (nonneg' : 0 ≤ k.slot) (bound' : k.slot ≤ lastMillis) :
    linkTime w aggregated k = if aggregated then w.slotRange.first else w.refine k.slot := by
  have exact_ {time : Int} (nonneg : 0 ≤ time) (bound : time ≤ lastMillis) :
      (Int64.ofInt (w.refine time)).toInt = w.refine time :=
    have between := w.refine_between nonneg
    RowKey.toInt_ofInt_slot between.1 (Int.le_trans between.2 bound)
  cases aggregated with
  | true => exact exact_ nonneg bound
  | false => exact exact_ nonneg' bound'

/-- The rows of the minutes that are asked for, salt by salt. -/
def scanned (salting : Salting) (table : SortedMap Bytes Cells) (a : Application) (w : TimeWindow) :
    List Row :=
  salting.salts.flatMap fun salt =>
    between table (salt :: RowKey.encode ⟨a.name, a.type.code, timeSlot w.range.last⟩)
      (salt :: (RowKey.encode ⟨a.name, a.type.code, timeSlot w.range.first⟩ ++ [0]))

/-- The rows that are found, with their keys. -/
def found (reading : Salting) (table : SortedMap Bytes Cells) (a : Application) (w : TimeWindow) :
    List (RowKey × Row) :=
  (scanned reading table a w).filterMap fun row => (rowKey? row).map (·, row)

/-- A name that has no row key has no rows. -/
theorem rows_of_long {a : Application} (long : Identifier.maxLength < a.name.utf8ByteSize) (s : Store)
    (t : Tables) (f : ColumnFamily) (w : TimeWindow) : rows s t f a w = .ok [] := by
  have range : range? a w = none := by
    rw [range?, RowKey.range, RowKey.of, if_pos long]
    rfl
  rw [rows, range]

theorem rows_of_short {a : Application} (short : a.name.utf8ByteSize ≤ Identifier.maxLength)
    {w : TimeWindow} (nonneg : 0 ≤ w.range.first) (ordered : w.range.first ≤ w.range.last)
    (bound : w.range.last ≤ lastMillis) (s : Store) (t : Tables) (f : ColumnFamily) :
    rows s t f a w = .ok (found t.salting (s.rows (f.tableIn t.space)) a w) := by
  have range : range? a w =
      some (RowKey.encode ⟨a.name, a.type.code, timeSlot w.range.last⟩,
        RowKey.encode ⟨a.name, a.type.code, timeSlot w.range.first⟩ ++ [0]) := by
    rw [range?, RowKey.range_of_short short]
    rfl
  have forward := RowKey.range_ordered nonneg ordered bound a.name a.type.code
  rw [rows, range]
  dsimp only
  rw [salted_scans forward]
  rfl

section

variable {a : Application} {w : TimeWindow} (fits : Identifier.Fits a.name)
  (nonneg : 0 ≤ w.range.first) (ordered : w.range.first ≤ w.range.last)
  (bound : w.range.last ≤ lastMillis)

include fits nonneg ordered bound

theorem rows_eq (s : Store) (t : Tables) (f : ColumnFamily) :
    rows s t f a w = .ok (found t.salting (s.rows (f.tableIn t.space)) a w) :=
  rows_of_short fits.1 nonneg ordered bound s t f

theorem mem_scanned {salting reading : Salting} (salts : salting.buckets ≤ reading.buckets)
    {table : SortedMap Bytes Cells} {k : RowKey} (sound : k.Sound) {row : Row}
    (key : row.key = salting.salted k.encode) : row ∈ scanned reading table a w ↔
      table.get? row.key = some row.cells ∧ Wanted a w k :=
  mem_saltedRows salts fits nonneg ordered bound sound key

end

theorem held_of_found {reading : Salting} {table : SortedMap Bytes Cells} {a : Application}
    {w : TimeWindow} {r : RowKey × Row} (member : r ∈ found reading table a w) :
    table.get? r.2.key = some r.2.cells := by
  obtain ⟨row, scan, read⟩ := List.mem_filterMap.1 member
  obtain ⟨k, -, rfl⟩ := Option.map_eq_some_iff.1 read
  obtain ⟨salt, -, inside⟩ := List.mem_flatMap.1 scan
  exact (mem_between.1 inside).1

theorem found_pairwise (reading : Salting) (table : SortedMap Bytes Cells) (a : Application)
    (w : TimeWindow) : (found reading table a w).Pairwise fun r r' => r.2.key ≠ r'.2.key := by
  refine List.pairwise_filterMap.2 ((saltedRows_pairwise reading table _ _).imp ?_)
  intro row row' apart r read r' read'
  obtain ⟨k, -, rfl⟩ := Option.map_eq_some_iff.1 read
  obtain ⟨k', -, rfl⟩ := Option.map_eq_some_iff.1 read'
  exact apart

/-- Each row of a minute that is asked for is found, under its key. -/
theorem mem_found {a : Application} {w : TimeWindow} (fits : Identifier.Fits a.name)
    (nonneg : 0 ≤ w.range.first) (ordered : w.range.first ≤ w.range.last)
    (bound : w.range.last ≤ lastMillis) {salting reading : Salting}
    (salts : salting.buckets ≤ reading.buckets) {table : SortedMap Bytes Cells} {k k' : RowKey}
    (sound : k.Sound) {row : Row} (key : row.key = salting.salted k.encode) :
    (k', row) ∈ found reading table a w ↔
      k' = k ∧ Wanted a w k ∧ table.get? row.key = some row.cells := by
  have read : rowKey? row = some k := by
    obtain ⟨_, cells⟩ := row
    subst key
    exact rowKey?_salted sound salting cells
  rw [found, List.mem_filterMap]
  constructor
  · rintro ⟨row', member, same⟩
    obtain ⟨k'', read', pair⟩ := Option.map_eq_some_iff.1 same
    obtain ⟨rfl, rfl⟩ := Prod.mk.inj pair
    obtain ⟨held, wanted⟩ := (mem_scanned fits nonneg ordered bound salts sound key).1 member
    exact ⟨Option.some.inj (read'.symm.trans read), wanted, held⟩
  · rintro ⟨rfl, wanted, held⟩
    exact ⟨row, (mem_scanned fits nonneg ordered bound salts sound key).2 ⟨held, wanted⟩,
      by rw [read]; rfl⟩

/-- Whether a key is in the range of the minutes that are asked for, behind some salt, and is read as
`k`. -/
def InRange (t : Tables) (a : Application) (w : TimeWindow) (bytes : Bytes) (k : RowKey) : Prop :=
  ∃ start stop salt key,
    RowKey.range a.name a.type.code w.range.first w.range.last = .ok (start, stop) ∧
    salt ∈ t.salting.salts ∧ bytes = salt :: key ∧ compare start key ≠ .gt ∧ compare key stop = .lt ∧
    RowKey.decode key = .ok k

theorem rowKey?_cons {salt : UInt8} {key : Bytes} {cells : Cells} {k : RowKey} :
    rowKey? ⟨salt :: key, cells⟩ = some k ↔ RowKey.decode key = .ok k := by
  have read : (RowError.unsalting (salt :: key) >>= RowKey.decode) = RowKey.decode key := rfl
  rw [rowKey?, read]
  cases RowKey.decode key <;> simp [Except.toOption]

theorem range?_eq_some {a : Application} {w : TimeWindow} {range : Bytes × Bytes} :
    range? a w = some range ↔
      RowKey.range a.name a.type.code w.range.first w.range.last = .ok range := by
  unfold range?
  cases RowKey.range a.name a.type.code w.range.first w.range.last <;> simp [Except.toOption]

theorem between_of_scan {s : Store} {table : TableName} {start stop : Bytes} {scan : List Row}
    (answer : s.scan table start stop = .ok scan) : scan = between (s.rows table) start stop := by
  unfold Store.scan at answer
  split at answer
  · cases answer
  · exact (Except.ok.inj answer).symm

/-- A reading has the rows of the table whose keys are in the range and can be read. -/
theorem mem_rows {s : Store} {t : Tables} {f : ColumnFamily} {a : Application} {w : TimeWindow}
    {read : List (RowKey × Row)} (answered : rows s t f a w = .ok read) {r : RowKey × Row} :
    r ∈ read ↔ InRange t a w r.2.key r.1 ∧
      (s.rows (f.tableIn t.space)).get? r.2.key = some r.2.cells := by
  unfold rows at answered
  cases range : range? a w with
  | none =>
    rw [range] at answered
    obtain rfl := Except.ok.inj answered
    simp [InRange, ← range?_eq_some, range]
  | some limits =>
    obtain ⟨start, stop⟩ := limits
    rw [range] at answered
    obtain ⟨scans, scanned, same⟩ := answered_of_bind answered
    obtain rfl := Except.ok.inj same
    obtain ⟨only, all⟩ := answers_of_mapM scanned
    simp only [List.mem_filterMap, List.mem_flatten, Option.map_eq_some_iff]
    constructor
    · rintro ⟨⟨bytes, cells⟩, ⟨scan, member, inside⟩, k, read, rfl⟩
      obtain ⟨limits, salted, answer⟩ := only scan member
      obtain ⟨salt, salts, rfl⟩ := List.mem_map.1 salted
      rw [between_of_scan answer, mem_between] at inside
      obtain ⟨held, within⟩ := inside
      cases bytes with
      | nil => simp at within
      | cons byte key =>
        rw [Salting.between_cons] at within
        obtain ⟨rfl, first, last⟩ := within
        exact ⟨⟨start, stop, byte, key, range?_eq_some.1 range, salts, rfl, first, last,
          rowKey?_cons.1 read⟩, held⟩
    · rintro ⟨⟨start', stop', salt, key, range', salts, bytes, first, last, decoded⟩, held⟩
      obtain ⟨rfl, rfl⟩ := Prod.mk.inj (Option.some.inj (range.symm.trans (range?_eq_some.2 range')))
      obtain ⟨scan, member, answer⟩ := all (salt :: start, salt :: stop) (List.mem_map_of_mem salts)
      refine ⟨r.2, ⟨scan, member, ?_⟩, r.1, ?_, rfl⟩
      · rw [between_of_scan answer, mem_between]
        exact ⟨held, bytes ▸ Salting.between_cons.2 ⟨rfl, first, last⟩⟩
      · obtain ⟨k, _, cells⟩ := r
        subst bytes
        exact rowKey?_cons.2 decoded

end CallTelemetry.Topology.Query
