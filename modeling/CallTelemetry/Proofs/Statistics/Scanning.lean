import CallTelemetry.Proofs.Failing
import CallTelemetry.Proofs.SortedMap
import CallTelemetry.Proofs.Statistics.RowKey
import CallTelemetry.Proofs.Storage.Salting
import CallTelemetry.Storage.Store

/-! Scans for the rows of one application. The range of its minutes is scanned once for each salt; a
reader that uses as many salts as the writer, or more, finds each row of these minutes once, and no
others. -/
namespace CallTelemetry.Statistics

/-- The rows of a range of keys. -/
def between (table : SortedMap Bytes Cells) (start stop : Bytes) : List Row :=
  (table.entries.filter fun e => compare start e.1 != .gt && compare e.1 stop == .lt).map
    fun e => ⟨e.1, e.2⟩

theorem mem_between {table : SortedMap Bytes Cells} {start stop : Bytes} {row : Row} :
    row ∈ between table start stop ↔ table.get? row.key = some row.cells ∧
      compare start row.key ≠ .gt ∧ compare row.key stop = .lt := by
  simp only [between, List.mem_map, List.mem_filter, Prod.exists, SortedMap.mem_entries_iff,
    Bool.and_eq_true, bne_iff_ne, beq_iff_eq]
  constructor
  · rintro ⟨key, cells, inside, rfl⟩
    exact inside
  · intro inside
    exact ⟨row.key, row.cells, inside, rfl⟩

theorem between_pairwise (table : SortedMap Bytes Cells) (start stop : Bytes) :
    (between table start stop).Pairwise fun row row' => row.key ≠ row'.key :=
  List.pairwise_map.2 ((table.ascending.filter _).imp SortedMap.key_ne_of_lt)

/-- The rows of a range of keys, salt by salt. -/
def saltedRows (reading : Salting) (table : SortedMap Bytes Cells) (start stop : Bytes) : List Row :=
  reading.salts.flatMap fun salt => between table (salt :: start) (salt :: stop)

theorem salted_scans {start stop : Bytes} (forward : compare start stop ≠ .gt)
    (reading : Salting) (s : Store) (table : TableName) :
    (reading.ranges start stop).mapM (fun r => s.scan table r.1 r.2) =
      .ok (reading.salts.map fun salt =>
        between (s.rows table) (salt :: start) (salt :: stop)) := by
  have scans := mapM_ok (f := fun r : Bytes × Bytes => s.scan table r.1 r.2)
    (g := fun r => between (s.rows table) r.1 r.2) (l := reading.ranges start stop)
    fun r member => by
      obtain ⟨salt, -, rfl⟩ := List.mem_map.1 member
      exact if_neg (by simpa using forward)
  rw [scans, Salting.ranges, List.map_map]
  rfl

/-- A row is in the range of one salt only. -/
theorem saltedRows_pairwise (reading : Salting) (table : SortedMap Bytes Cells) (start stop : Bytes) :
    (saltedRows reading table start stop).Pairwise fun row row' => row.key ≠ row'.key := by
  have first {salt : UInt8} {row : Row}
      (member : row ∈ between table (salt :: start) (salt :: stop)) : row.key.head? = some salt := by
    obtain ⟨-, inside⟩ := mem_between.1 member
    cases key : row.key with
    | nil => simp [key] at inside
    | cons byte rest =>
      rw [key, Salting.between_cons] at inside
      rw [inside.1]
      rfl
  refine List.pairwise_flatMap.2 ⟨fun salt _ => between_pairwise _ _ _, ?_⟩
  refine reading.salts_nodup.imp fun apart row member row' member' same => ?_
  have heads := first member
  rw [same, first member'] at heads
  exact apart (Option.some.inj heads).symm

section

variable {salting reading : Salting} (salts : salting.buckets ≤ reading.buckets) {name : String}
  {type : Int16} {first last : Int} (fits : Identifier.Fits name) (nonneg : 0 ≤ first)
  (ordered : first ≤ last) (bound : last ≤ lastMillis)

include salts fits nonneg ordered bound

theorem mem_saltedRows {table : SortedMap Bytes Cells} {k : RowKey} (sound : k.Sound) {row : Row}
    (key : row.key = salting.salted k.encode) :
    row ∈ saltedRows reading table (RowKey.encode ⟨name, type, timeSlot last⟩)
        (RowKey.encode ⟨name, type, timeSlot first⟩ ++ [0]) ↔
      table.get? row.key = some row.cells ∧ k.application = name ∧ k.type = type ∧
        timeSlot first ≤ k.slot ∧ k.slot ≤ timeSlot last := by
  simp only [saltedRows, List.mem_flatMap, mem_between]
  rw [key, Salting.salted]
  simp only [Salting.between_cons, RowKey.mem_range nonneg ordered bound fits sound]
  constructor
  · rintro ⟨salt, -, held, -, wanted⟩
    exact ⟨held, wanted⟩
  · rintro ⟨held, wanted⟩
    exact ⟨_, Salting.bucket_mem_salts salts _, held, rfl, wanted⟩

/-- Of a table of salted rows, the scans of an application's minutes find each row of these minutes
once, and no other row. -/
theorem salted_scan_exact (s : Store) (table : TableName)
    (written : ∀ key ∈ (s.rows table).keys, ∃ k : RowKey, k.Sound ∧ key = salting.salted k.encode) :
    ∃ start stop scans, RowKey.range name type first last = .ok (start, stop) ∧
      (reading.ranges start stop).mapM (fun r => s.scan table r.1 r.2) = .ok scans ∧
      (scans.flatten.Pairwise fun row row' => row.key ≠ row'.key) ∧
      ∀ row, row ∈ scans.flatten ↔ (s.rows table).get? row.key = some row.cells ∧
        ∃ k : RowKey, row.key = salting.salted k.encode ∧ k.application = name ∧ k.type = type ∧
          timeSlot first ≤ k.slot ∧ k.slot ≤ timeSlot last := by
  have forward := RowKey.range_ordered nonneg ordered bound name type
  refine ⟨_, _, _, RowKey.range_eq fits type first last, salted_scans forward reading s table, ?_,
    fun row => ?_⟩ <;> rw [← List.flatMap_def]
  · exact saltedRows_pairwise reading _ _ _
  constructor
  · intro member
    obtain ⟨salt, -, inside⟩ := List.mem_flatMap.1 member
    have held := (mem_between.1 inside).1
    obtain ⟨k, sound, key⟩ := written row.key (SortedMap.mem_keys_iff.2 (by simp [held]))
    obtain ⟨-, wanted⟩ := (mem_saltedRows salts fits nonneg ordered bound sound key).1 member
    exact ⟨held, k, key, wanted⟩
  · rintro ⟨held, k, key, rfl, rfl, earliest, latest⟩
    have least := timeSlot_nonneg nonneg
    have most := timeSlot_le last
    have sound : k.Sound := ⟨fits, by omega, by omega⟩
    exact (mem_saltedRows salts fits nonneg ordered bound sound key).2
      ⟨held, rfl, rfl, earliest, latest⟩

end

def fewSalts : Salting := ⟨5, by decide, by decide⟩

def moreSalts : Salting := ⟨7, by decide, by decide⟩

/-- A minute of an application, the minute before it, and the same minute of an application whose name
goes on. -/
def threeKeys : List RowKey :=
  [⟨"shop", 1010, 60000⟩, ⟨"shop", 1010, 0⟩, ⟨"shop-b", 1010, 60000⟩]

def threeRows : Store :=
  threeKeys.foldl (fun s k => s.increment ⟨"t"⟩ ⟨fewSalts.salted k.encode, [67], [([0], 1)]⟩) .empty

theorem salted_scan_exact_three :
    ∃ start stop scans, RowKey.range "shop" 1010 60001 179999 = .ok (start, stop) ∧
      (moreSalts.ranges start stop).mapM (fun r => threeRows.scan ⟨"t"⟩ r.1 r.2) = .ok scans ∧
      ∃ row ∈ scans.flatten, row.key = fewSalts.salted (RowKey.encode ⟨"shop", 1010, 60000⟩) := by
  have written : ∀ key ∈ (threeRows.rows ⟨"t"⟩).keys, ∃ k ∈ threeKeys, k.Sound ∧
      key = fewSalts.salted k.encode := by decide +kernel
  obtain ⟨start, stop, scans, range, scan, -, rows⟩ := salted_scan_exact
    (show fewSalts.buckets ≤ moreSalts.buckets by decide) (by decide : Identifier.Fits "shop")
    (by decide : (0 : Int) ≤ 60001) (by decide : (60001 : Int) ≤ 179999) (by decide) threeRows ⟨"t"⟩
    fun key member => by
      obtain ⟨k, -, sound⟩ := written key member
      exact ⟨k, sound⟩
  obtain ⟨cells, held⟩ := Option.isSome_iff_exists.1 (by decide +kernel :
    ((threeRows.rows ⟨"t"⟩).get? (fewSalts.salted (RowKey.encode ⟨"shop", 1010, 60000⟩))).isSome)
  exact ⟨start, stop, scans, range, scan, ⟨_, cells⟩, (rows _).2 ⟨held, ⟨"shop", 1010, 60000⟩, rfl,
    rfl, rfl, by decide, by decide⟩, rfl⟩

end CallTelemetry.Statistics
