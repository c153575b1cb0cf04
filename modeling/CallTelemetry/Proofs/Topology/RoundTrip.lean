import Mathlib
import CallTelemetry.Proofs.Statistics.Recording
import CallTelemetry.Proofs.Topology.Reading

/-! Calls that are recorded are read back. Once all is written, what is read of an application are the
links that its calls make when they are counted one by one. -/
namespace CallTelemetry.Topology

open Latency Pending Statistics

/-- What a call adds to the links of its minutes: one in its class, and its time. -/
def Addition.ofCall (agent : String) (time : Int) (c : Call) : List Addition :=
  let add (slot : Slot) (value : Int64) : Addition :=
    ⟨⟨c.caller, c.callee⟩, ⟨⟨agent, c.caller.type⟩, ⟨c.calleeHost, c.callee.type⟩⟩, time, slot, value⟩
  [add c.slot 1, add .sum c.elapsed.toInt64, add .max c.elapsed.toInt64]

/-- The links that calls make when they are counted one by one. -/
def Links.ofCalls (agent : Call → String) (time : Call → Int) (calls : List Call) : Links :=
  ofAdditions (calls.flatMap fun c => Addition.ofCall (agent c) (time c) c)

/-- Where the tables keep what is recorded in a column family. -/
def Tables.destination {κ : Type} (t : Tables) (f : ColumnFamily) (encode : κ → Bytes) :
    Destination κ := ⟨f.tableIn t.space, f.family, t.salting, encode⟩

namespace Query

/-- Whether the minute of a call is asked for. -/
def Asked (w : TimeWindow) (c : Call) : Prop :=
  timeSlot w.range.first ≤ timeSlot c.timestamp ∧ timeSlot c.timestamp ≤ timeSlot w.range.last

instance (w : TimeWindow) (c : Call) : Decidable (Asked w c) := inferInstanceAs (Decidable (_ ∧ _))

/-- The time under which a call is counted: its slot of the window, or, where all slots are taken
together, the first. -/
def callTime (w : TimeWindow) (aggregated : Bool) (c : Call) : Int :=
  if aggregated then w.slotRange.first else w.refine (timeSlot c.timestamp)

section

variable {κ : Type} {h : Half κ} {encode : κ → Bytes} {decode : Bytes → Except RowError κ}
  {calls : List Call} {tally : κ → Int → Int64 → Tally} {a : Application} {w : TimeWindow}

theorem row_of_records {c : Call} {r : Record κ} (member : r ∈ h.records c) : r.row = h.row c := by
  have row : ∀ r ∈ h.records c, r.row = h.row c := by simp [Half.records, Half.record]
  exact row r member

theorem filter_records (h : Half κ) (calls : List Call) (p : RowKey → Bool) :
    ((calls.flatMap h.records).filter fun r => p r.row) =
      (calls.filter fun c => p (h.row c)).flatMap h.records :=
  filter_flatMap_whole (fun _ _ member => by rw [row_of_records member]) calls

/-- The row of a call is asked for with its owner and its minute. -/
theorem wanted_iff {owner : Application} {c : Call} :
    Wanted a w ⟨owner.name, owner.type.code, timeSlot c.timestamp⟩ ↔ owner = a ∧ Asked w c := by
  constructor
  · rintro ⟨name, code, asked⟩
    have type := ServiceType.code_injective _ _ code
    cases a
    cases owner
    exact ⟨by rw [Application.mk.injEq]; exact ⟨name, type⟩, asked⟩
  · rintro ⟨rfl, asked⟩
    exact ⟨rfl, rfl, asked⟩

/-- What the records of an application add is what its own calls do. -/
theorem records_additions {aggregated : Bool} (owner : Call → Application) {agent : Call → String}
    (rows_ : ∀ c ∈ calls, h.row c = ⟨(owner c).name, (owner c).type.code, timeSlot c.timestamp⟩)
    (each : ∀ c ∈ calls, owner c = a → ((h.records c).map fun r =>
      (tally r.column (linkTime w aggregated (h.row c)) r.value).addition r.slot) =
        Addition.ofCall (agent c) (callTime w aggregated c) c) :
    (((calls.flatMap h.records).filter (Wanted a w ·.row)).map fun r =>
      (tally r.column (linkTime w aggregated r.row) r.value).addition r.slot) =
        (calls.filter fun c => owner c = a ∧ Asked w c).flatMap fun c =>
          Addition.ofCall (agent c) (callTime w aggregated c) c := by
  have mine : (calls.filter fun c => Wanted a w (h.row c)) =
      calls.filter fun c => owner c = a ∧ Asked w c :=
    List.filter_congr fun c member => by rw [rows_ c member]; simp only [wanted_iff]
  rw [filter_records h calls fun row => Wanted a w row, mine, List.map_flatMap, List.flatMap_def,
    List.flatMap_def]
  refine congrArg List.flatten (List.map_congr_left fun c member => ?_)
  obtain ⟨inside, here⟩ := List.mem_filter.1 member
  rw [← each c inside (of_decide_eq_true here).1]
  exact List.map_congr_left fun r told => by rw [row_of_records told]

variable [DecidableEq κ]

theorem legible_records (readable : h.Readable encode decode calls)
    (bounded : Bounded (calls.flatMap h.records)) (t : Tables) (f : ColumnFamily)
    (slot : ∀ c ∈ calls, Wanted a w (h.row c) → ∀ slot time count,
      (tally (h.column c slot) time count).slot? = some slot)
    (told : ∀ column time count, tally column time count = { tally column 0 0 with time, count })
    (alike : ∀ c slot slot', (tally (h.column c slot) 0 0).edge = (tally (h.column c slot') 0 0).edge ∧
      (tally (h.column c slot) 0 0).ends = (tally (h.column c slot') 0 0).ends) :
    Legible (t.destination f encode) decode tally a w (calls.flatMap h.records) where
  row r member := by
    obtain ⟨c, inside, row, -⟩ := h.mem_records member
    exact row ▸ readable.row c inside
  column r member := by
    obtain ⟨c, inside, -, column, -⟩ := h.mem_records member
    exact column ▸ readable.column c inside r.slot
  slot r member here time count := by
    obtain ⟨c, inside, row, column, -⟩ := h.mem_records member
    exact column ▸ slot c inside (row ▸ here) r.slot time count
  told := told
  beside r member := by
    obtain ⟨c, inside, row, column, -⟩ := h.mem_records member
    have first : h.record c c.slot 1 ∈ calls.flatMap h.records :=
      List.mem_flatMap.2 ⟨c, inside, List.mem_cons_self⟩
    obtain ⟨edges, ends⟩ := alike c c.slot r.slot
    refine ⟨h.record c c.slot 1, first, row.symm, column ▸ edges, column ▸ ends, ?_⟩
    exact Half.recorded_ne_zero (Half.Readable.distinct (d := t.destination f encode) readable) bounded
      first (Scheme.classify_counted _ _ _)

/-- Calls that a table keeps are read back. An application whose name has no row key has made none. -/
theorem read_records {s : Store} {t : Tables} {f : ColumnFamily}
    (keeps : Keeps s (t.destination f encode) (calls.flatMap h.records))
    (readable : h.Readable encode decode calls)
    (legible : Legible (t.destination f encode) decode tally a w (calls.flatMap h.records))
    (trimmed : a.name.toList.getLast? ≠ some '\x00') (nonneg : 0 ≤ w.range.first)
    (ordered : w.range.first ≤ w.range.last) (bound : w.range.last ≤ lastMillis)
    {aggregated : Bool} (owner : Call → Application) {agent : Call → String}
    (rows_ : ∀ c, h.row c = ⟨(owner c).name, (owner c).type.code, timeSlot c.timestamp⟩)
    (each : ∀ c ∈ calls, owner c = a → ((h.records c).map fun r =>
      (tally r.column (linkTime w aggregated (h.row c)) r.value).addition r.slot) =
        Addition.ofCall (agent c) (callTime w aggregated c) c) :
    (rows s t f a w).map (fun rows =>
        Links.addAll .empty (rows.flatMap (tallies decode tally w aggregated))) =
      .ok (Links.ofCalls agent (callTime w aggregated)
        (calls.filter fun c => owner c = a ∧ Asked w c)) := by
  by_cases short : a.name.utf8ByteSize ≤ Identifier.maxLength
  · have fits : Identifier.Fits a.name := ⟨short, mt Bytes.getLast?_ofText trimmed⟩
    rw [rows_eq fits nonneg ordered bound, Links.ofCalls,
      ← records_additions owner (fun c _ => rows_ c) each]
    exact congrArg Except.ok
      (addAll_tallies keeps legible (Nat.le_refl _) fits nonneg ordered bound aggregated)
  · have nobody : (calls.filter fun c => owner c = a ∧ Asked w c) = [] := by
      refine List.filter_eq_nil_iff.2 fun c inside here => short ?_
      have name := (readable.row c inside).name.1
      rw [rows_ c, (of_decide_eq_true here).1] at name
      exact name
    rw [rows_of_long (Nat.lt_of_not_le short), nobody]
    rfl

end

/-- A row is counted under the time of its call. -/
theorem linkTime_of_call {w : TimeWindow} (nonneg : 0 ≤ w.range.first)
    (bound : w.range.first ≤ lastMillis) (aggregated : Bool) {c : Call} (sound : c.Sound)
    (name : String) (type : Int16) :
    linkTime w aggregated ⟨name, type, timeSlot c.timestamp⟩ = callTime w aggregated c :=
  linkTime_eq nonneg bound aggregated (timeSlot_nonneg sound.nonneg)
    (Int.le_trans (timeSlot_le _) sound.bound)

theorem outbound_additions {w : TimeWindow} {aggregated : Bool} {c : Call}
    (timed : linkTime w aggregated (Half.outbound.row c) = callTime w aggregated c) :
    ((Half.outbound.records c).map fun r => (outboundTally c.caller r.column
      (linkTime w aggregated (Half.outbound.row c)) r.value).addition r.slot) =
        Addition.ofCall c.callerAgentId (callTime w aggregated c) c := by
  rw [timed]
  simp only [Half.records, Half.record, List.map_cons, List.map_nil, outboundTally, Half.outbound,
    Tally.addition, Tally.ends, ServiceType.ofCode_code]
  rfl

theorem inbound_additions {w : TimeWindow} {aggregated : Bool} {c : Call}
    (timed : linkTime w aggregated (Half.inbound.row c) = callTime w aggregated c) :
    ((Half.inbound.records c).map fun r => (inboundTally c.callee r.column
      (linkTime w aggregated (Half.inbound.row c)) r.value).addition r.slot) =
        Addition.ofCall c.caller.name (callTime w aggregated c) c := by
  rw [timed]
  simp only [Half.records, Half.record, List.map_cons, List.map_nil, inboundTally, Half.inbound,
    Tally.addition, Tally.ends, ServiceType.ofCode_code]
  rfl

section

variable {s : Store} {t : Tables} {calls : List Call} (sound : ∀ c ∈ calls, c.Sound) {a : Application}
  {w : TimeWindow} (trimmed : a.name.toList.getLast? ≠ some '\x00') (nonneg : 0 ≤ w.range.first)
  (ordered : w.range.first ≤ w.range.last) (bound : w.range.last ≤ lastMillis)

include sound trimmed nonneg ordered bound

theorem outbound_eq_ofCalls (valid : ∀ c ∈ calls, Identifier.valid c.caller.name)
    (bounded : Bounded (calls.flatMap Half.outbound.records))
    (keeps : Keeps s (t.destination .callerCounter CalleeColumn.encode)
      (calls.flatMap Half.outbound.records)) (aggregated : Bool) :
    outbound s t a w aggregated = .ok (Links.ofCalls (·.callerAgentId) (callTime w aggregated)
      (calls.filter fun c => c.caller = a ∧ Asked w c)) := by
  have readable := Half.outbound_readable sound valid
  have slot (c : Call) (slot : Slot) (time : Int) (count : Int64) :
      (outboundTally a (Half.outbound.column c slot) time count).slot? = some slot := by
    simp only [outboundTally, Half.outbound, Tally.slot?, Edge.scheme, ServiceType.ofCode_code]
    exact c.callee.type.slotOfCode?_code slot
  have legible : Legible (t.destination .callerCounter CalleeColumn.encode) CalleeColumn.decode
      (outboundTally a) a w (calls.flatMap Half.outbound.records) :=
    legible_records readable bounded t .callerCounter (fun c _ _ => slot c) (fun _ _ _ => rfl)
      fun _ _ _ => ⟨rfl, rfl⟩
  have read := read_records keeps readable legible trimmed nonneg ordered bound Call.caller
    (fun _ => rfl) fun c member mine => mine ▸ outbound_additions
      (linkTime_of_call nonneg (Int.le_trans ordered bound) aggregated (sound c member) _ _)
  rw [← read, outbound]
  cases rows s t .callerCounter a w <;> rfl

theorem inbound_eq_ofCalls (valid : ∀ c ∈ calls, Identifier.valid c.callee.name)
    (bounded : Bounded (calls.flatMap Half.inbound.records))
    (keeps : Keeps s (t.destination .calleeCounter CallerColumn.encode)
      (calls.flatMap Half.inbound.records)) (aggregated : Bool) :
    inbound s t a w aggregated = .ok (Links.ofCalls (·.caller.name) (callTime w aggregated)
      (calls.filter fun c => c.callee = a ∧ Asked w c)) := by
  have readable := Half.inbound_readable sound valid
  have slot (c : Call) (here : Wanted a w (Half.inbound.row c)) (slot : Slot) (time : Int) (count : Int64) :
      (inboundTally a (Half.inbound.column c slot) time count).slot? = some slot := by
    obtain ⟨rfl, -⟩ := wanted_iff.1 here
    exact c.callee.type.slotOfCode?_code slot
  have legible : Legible (t.destination .calleeCounter CallerColumn.encode) CallerColumn.decode
      (inboundTally a) a w (calls.flatMap Half.inbound.records) :=
    legible_records readable bounded t .calleeCounter (fun c _ => slot c) (fun _ _ _ => rfl)
      fun _ _ _ => ⟨rfl, rfl⟩
  have read := read_records keeps readable legible trimmed nonneg ordered bound Call.callee
    (fun _ => rfl) fun c member mine => mine ▸ inbound_additions
      (linkTime_of_call nonneg (Int.le_trans ordered bound) aggregated (sound c member) _ _)
  rw [← read, inbound]
  cases rows s t .calleeCounter a w <;> rfl

end

/-- Whether batched writers of the tables start with nothing to write, over an empty store. -/
structure Starts (t : Tables) (s : Writing Side) : Prop where
  writer (side : Side) : ∃ batchSize counterLimit maximumLimit, Writer.batched (s.writers side) =
    .batchedOver side.family t.space t.salting batchSize counterLimit maximumLimit
  store : s.store = .empty
  deliveries : s.deliveries = []

namespace Starts

variable {t : Tables} {s : Writing Side} (starts : Starts t s)

include starts

theorem idle : s.Idle where
  pending side kind := by
    obtain ⟨_, _, _, writer⟩ := starts.writer side
    rw [Writer.batched.inj writer]
    cases kind <;> rfl
  deliveries := starts.deliveries

theorem writesTo (side : Side) {κ : Type} (encode : κ → Bytes) :
    WritesTo (s.writers side) (t.destination side.family encode) := by
  obtain ⟨_, _, _, writer⟩ := starts.writer side
  rw [Writer.batched.inj writer]
  exact ⟨rfl, rfl, rfl⟩

/-- Every side has a table to itself. -/
theorem sole {side side' : Side}
    (same : (s.writers side').table = side.family.tableIn t.space) : side' = side := by
  rw [(starts.writesTo side' (fun bytes : Bytes => bytes)).table] at same
  have tables := (String.append_right_inj _).1 (TableName.mk.inj same)
  cases side <;> cases side' <;> first | rfl | exact absurd tables (by decide)

end Starts

theorem addressed_onSide (side side' : Side) (ms : List Mutation) :
    Writing.addressed side' (onSide side (.ok ms)) = if side = side' then ms else [] := by
  by_cases same : side = side' <;> simp [Writing.addressed, onSide, same]

/-- Calls of one side give their mutations to the writer of that side only. -/
theorem addressed_calls {γ : Type} (side side' : Side) {calls : List γ}
    {f : γ → Except RowError (List Mutation)} {g : γ → List Mutation}
    (each : ∀ c ∈ calls, f c = .ok (g c)) :
    Writing.addressed side' (calls.flatMap fun c => onSide side (f c)) =
      if side = side' then calls.flatMap g else [] := by
  induction calls with
  | nil => split <;> rfl
  | cons c calls ih =>
    have rest := ih fun c' member => each c' (List.mem_cons_of_mem c member)
    have first := addressed_onSide side side' (g c)
    rw [← each c List.mem_cons_self] at first
    rw [List.flatMap_cons, Writing.addressed_append, first, rest]
    split <;> rfl

section

variable {t : Tables} {s : Writing Side} (starts : Starts t s)
  {recording finishing : List (Writing.Action Side)} (quiet : ∀ a ∈ recording, a.Quiet)
  (room : s.admits recording) (flushes : ∀ a ∈ finishing, a.Flushes)
  (last : ∀ side kind, .flush side kind ∈ finishing)
  (done : (s.run (recording ++ finishing)).deliveries = [])

include starts quiet room flushes last done

omit done in
/-- A last flush leaves nothing pending, and it changes nothing of what was told. -/
theorem finished (side : Side) : (∀ a ∈ recording ++ finishing, a.Quiet) ∧
    s.admits (recording ++ finishing) ∧
    Writing.told side (recording ++ finishing) = Writing.told side recording ∧
    ∀ kind, ((s.run (recording ++ finishing)).writers side).pending kind = .empty := by
  refine ⟨Writing.quiet_append_of_flushes quiet flushes, ?_, ?_, fun kind => ?_⟩
  · rw [Writing.admits_append, room, Writing.admits_of_flushes flushes]
    rfl
  · rw [Writing.told_append, Writing.told_of_flushes flushes, List.append_nil]
  · have failures : (s.run recording).store.dueFailures = 0 :=
      Writing.dueFailures_run (by rw [starts.store]; rfl) quiet
    rw [Writing.run_append]
    exact Writing.pending_of_flushes failures flushes (.inl (last side kind))

section

variable {κ : Type} [DecidableEq κ] (side : Side) {h : Half κ} {encode : κ → Bytes}
  {decode : Bytes → Except RowError κ} {calls : List Call}
  (readable : h.Readable encode decode calls)
  (told : (Writing.told side recording).Perm ((calls.flatMap h.records).map (·.mutation encode)))

include readable told

/-- A last flush leaves in the table of a side what was recorded there. -/
theorem keeps_records : Keeps (s.run (recording ++ finishing)).store
    (t.destination side.family encode) (calls.flatMap h.records) := by
  obtain ⟨quiet', room', same, empty⟩ := finished starts quiet room flushes last side
  exact keeps_of_done (d := t.destination side.family encode) starts.idle starts.store
    (starts.writesTo side encode) (fun side' same => starts.sole same) quiet'
    (by rw [same]; exact told) room' readable.distinct empty done

/-- It leaves there the longest times, whatever their signs. -/
theorem peak_records {r : Record κ} (member : r ∈ calls.flatMap h.records) (top : r.slot = .max) :
    (s.run (recording ++ finishing)).store.count?
        ((t.destination side.family encode).place r.row r.column) =
      (values (calls.flatMap h.records) r.key).max? := by
  obtain ⟨quiet', room', same, empty⟩ := finished starts quiet room flushes last side
  exact peak_of_done (d := t.destination side.family encode) starts.idle starts.store
    (starts.writesTo side encode) (fun side' same => starts.sole same) quiet'
    (by rw [same]; exact told) room' readable.distinct empty done member top

end

/-- Calls that are recorded in any order, with flushes in between and a last flush of all writers, are
read back: of an application, in a window of time, the links that its own calls make when they are
counted one by one. -/
theorem calls_read_back {outs ins : List Call}
    (recorded : (Writing.mutations recording).Perm
      ((outs.flatMap fun c => onSide .caller (Statistics.outbound c)) ++
        ins.flatMap fun c => onSide .callee (Statistics.inbound c)))
    (sound : ∀ c ∈ outs ++ ins, c.Sound) (callers : ∀ c ∈ outs, Identifier.valid c.caller.name)
    (callees : ∀ c ∈ ins, Identifier.valid c.callee.name)
    (bounded : Bounded (outs.flatMap Half.outbound.records))
    (bounded' : Bounded (ins.flatMap Half.inbound.records)) {a : Application}
    (trimmed : a.name.toList.getLast? ≠ some '\x00') {w : TimeWindow} (nonneg : 0 ≤ w.range.first)
    (ordered : w.range.first ≤ w.range.last) (bound : w.range.last ≤ lastMillis)
    (aggregated : Bool) :
    let store := (s.run (recording ++ finishing)).store
    outbound store t a w aggregated = .ok (Links.ofCalls (·.callerAgentId) (callTime w aggregated)
      (outs.filter fun c => c.caller = a ∧ Asked w c)) ∧
    inbound store t a w aggregated = .ok (Links.ofCalls (·.caller.name) (callTime w aggregated)
      (ins.filter fun c => c.callee = a ∧ Asked w c)) := by
  have told (side : Side) : (Writing.told side recording).Perm
      (Writing.addressed side (outs.flatMap fun c => onSide .caller (Statistics.outbound c)) ++
        Writing.addressed side (ins.flatMap fun c => onSide .callee (Statistics.inbound c))) := by
    rw [← Writing.addressed_append]
    exact recorded.filterMap _
  have outbound_ (side : Side) := addressed_calls .caller side fun c member =>
    Half.outbound_eq (callers c member)
  have inbound_ (side : Side) := addressed_calls .callee side fun c member =>
    Half.inbound_eq (callees c member)
  have caller : (Writing.told .caller recording).Perm
      ((outs.flatMap Half.outbound.records).map (·.mutation CalleeColumn.encode)) := by
    simpa [outbound_, inbound_, List.map_flatMap] using told .caller
  have callee : (Writing.told .callee recording).Perm
      ((ins.flatMap Half.inbound.records).map (·.mutation CallerColumn.encode)) := by
    simpa [outbound_, inbound_, List.map_flatMap] using told .callee
  have sound_ (c : Call) (member : c ∈ outs) := sound c (List.mem_append_left ins member)
  have sound' (c : Call) (member : c ∈ ins) := sound c (List.mem_append_right outs member)
  refine ⟨outbound_eq_ofCalls sound_ trimmed nonneg ordered bound callers bounded ?_ aggregated,
    inbound_eq_ofCalls sound' trimmed nonneg ordered bound callees bounded' ?_ aggregated⟩
  · exact keeps_records starts quiet room flushes last done .caller
      (Half.outbound_readable sound_ callers) caller
  · exact keeps_records starts quiet room flushes last done .callee
      (Half.inbound_readable sound' callees) callee

end

/-- A call to a database, and a failed one to a cache that came to its end before it began. -/
def twoCalls : Call × Call :=
  (⟨⟨"shop", .tomcat⟩, "shop-1", ⟨"orders", .mysql⟩, "db:3306", 1200, false, 61000⟩,
    ⟨⟨"shop", .tomcat⟩, "shop-2", ⟨"cart", .redis⟩, "cache", -5, true, 179999⟩)

/-- Both callers record, and one callee, while a flush is under way. -/
def twoRecorded : List (Writing.Action Side) :=
  let record (l : List (Side × Mutation)) : List (Writing.Action Side) :=
    l.map fun e => .mutate e.1 e.2
  record (onSide .caller (Statistics.outbound twoCalls.2)) ++ [.flush .caller .counters] ++
    record (onSide .callee (Statistics.inbound twoCalls.1)) ++ [.answer 0, .flush .callee .maxima] ++
    record (onSide .caller (Statistics.outbound twoCalls.1))

def twoFinished : List (Writing.Action Side) :=
  Side.all.flatMap (fun side => [.flush side .counters, .flush side .maxima]) ++
    List.replicate 12 (.answer 0)

def twoBuckets : Tables := ⟨"a", ⟨2, by decide, by decide⟩⟩

def threeWriters : Writing Side where
  writers side := ⟨side.family.tableIn "a", side.family.family, twoBuckets.salting, 1, some 9, none,
    .empty, .empty, .empty⟩
  store := .empty
  deliveries := []

theorem threeWriters_starts : Starts twoBuckets threeWriters :=
  ⟨fun _ => ⟨1, some 9, none, rfl⟩, rfl, rfl⟩

theorem twoFinished_flushes : ∀ a ∈ twoFinished, a.Flushes := by decide

theorem mem_twoFinished (side : Side) (kind : Flushing) : .flush side kind ∈ twoFinished := by
  cases side <;> cases kind <;> simp [twoFinished, Side.all]

theorem calls_read_back_two :
    let store := (threeWriters.run (twoRecorded ++ twoFinished)).store
    let w : TimeWindow := ⟨⟨60000, 130000⟩, 60000⟩
    outbound store twoBuckets ⟨"shop", .tomcat⟩ w false =
      .ok (Links.ofCalls (·.callerAgentId) (callTime w false) [twoCalls.1, twoCalls.2]) := by
  have quiet : ∀ a ∈ twoRecorded, a.Quiet := by decide
  have recorded : (Writing.mutations twoRecorded).Perm
      (([twoCalls.1, twoCalls.2].flatMap fun c => onSide .caller (Statistics.outbound c)) ++
        [twoCalls.1].flatMap fun c => onSide .callee (Statistics.inbound c)) :=
    List.isPerm_iff.1 (by cbv)
  have sound : ∀ c ∈ [twoCalls.1, twoCalls.2] ++ [twoCalls.1], c.Sound := by decide
  exact (calls_read_back threeWriters_starts quiet (by cbv) twoFinished_flushes mem_twoFinished
    (by cbv) recorded sound (by decide) (by decide) (by decide) (by decide) (by decide) (by decide)
    (by decide) (by decide) false).1

end Query

end CallTelemetry.Topology
